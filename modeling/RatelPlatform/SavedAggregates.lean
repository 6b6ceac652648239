import RatelPlatform.EncryptedSalaries
import RatelPlatform.PayslipTotals

/-!
# Saving and loading

Of the columns a repository creates, its `update` lists those that some method of the
aggregate writes. So an aggregate comes back from the database as it was saved, whichever
branch the upsert takes, and no other row is touched. A `DATE` column keeps the day. Versions
of a salary structure are not updated: `save` inserts one, and the end of the version before it
is written with the next one.
-/

namespace RatelPlatform

/-- The tables agree on every other key. -/
def SameElsewhere {κ ρ : Type} [DecidableEq κ] (k : κ) (t t' : Table κ ρ) : Prop :=
  ∀ k', k' ≠ k → t'.lookup k' = t.lookup k'

theorem SameElsewhere.insert {κ ρ : Type} [DecidableEq κ] (k : κ) (row : ρ) (t : Table κ ρ) :
    SameElsewhere k t (t.insert k row) := fun _ hk => Finmap.lookup_insert_of_ne t hk

theorem SameElsewhere.trans {κ ρ : Type} [DecidableEq κ] {k : κ} {t t' t'' : Table κ ρ}
    (h : SameElsewhere k t t') (h' : SameElsewhere k t' t'') : SameElsewhere k t t'' :=
  fun k' hk => (h' k' hk).trans (h k' hk)

/-! ## Expenses -/

namespace ExpenseRepository

/-- After it is saved the expense is loaded with these properties, and nothing else of the store
has changed. -/
def SavedAs (d : Store) (e : Expense) (props : ExpenseProps) : Prop :=
  ∀ d', (save e).solo d = .ok ((), d') →
    (findById e.props.id).solo d' = .ok (some (.reconstitute props), d') ∧
      ∃ expenses, d' = { d with expenses } ∧ SameElsewhere e.props.id d.expenses expenses

/-- **A new expense** is created with all its columns. -/
theorem savedAs_new {d : Store} {e : Expense} (hnew : d.expenses.lookup e.props.id = none) :
    SavedAs d e { e.props with expenseDate := e.props.expenseDate.day } := by
  intro d' hsave
  obtain ⟨-, rfl⟩ := save_new_ok hnew hsave
  refine ⟨?_, _, rfl, .insert _ _ _⟩
  rw [findById_solo]
  simp only [Finmap.lookup_insert]
  rfl

/-- **A loaded expense** is updated in the columns that its methods write. -/
theorem savedAs_loaded {d : Store} {id : Id} {row : ExpenseRow}
    (hrow : d.expenses.lookup id = some row) (calls : List (ExpenseMethod × JsDate)) :
    SavedAs d (callAll ExpenseMethod.call (toDomain id row) calls)
      (callAll ExpenseMethod.call (toDomain id row) calls).props := by
  obtain ⟨hid, hupdate⟩ := callAll_induction (p := Expense.UpdatesRow id row)
    (fun hcall h => h.call hcall) (.loaded id row) calls
  generalize callAll ExpenseMethod.call (toDomain id row) calls = e at hid hupdate
  subst hid
  intro d' hsave
  obtain ⟨-, -, rfl⟩ := (save_existing_ok hrow).mp hsave
  refine ⟨?_, _, rfl, .insert _ _ _⟩
  rw [findById_solo, hupdate]
  simp only [Finmap.lookup_insert]
  rfl

end ExpenseRepository

/-! ## Financial periods -/

namespace FinancialPeriodRepository

/-- After it is saved the period is loaded with these properties, and nothing else of the store
has changed. -/
def SavedAs (d : Store) (p : FinancialPeriod) (props : FinancialPeriodProps) : Prop :=
  ∀ d', (save p).solo d = .ok ((), d') →
    (findById p.props.id).solo d' = .ok (some (.reconstitute props), d') ∧
      ∃ financialPeriods, d' = { d with financialPeriods } ∧
        SameElsewhere p.props.id d.financialPeriods financialPeriods

/-- **A new period** is created with all its columns. -/
theorem savedAs_new {d : Store} {p : FinancialPeriod}
    (hnew : d.financialPeriods.lookup p.props.id = none) :
    SavedAs d p { p.props with
      startDate := p.props.startDate.day, endDate := p.props.endDate.day } := by
  intro d' hsave
  simp only [save, Tx.solo_exec_ok, if_neg (Finmap.lookup_eq_none.mp hnew), except_bind_ok,
    ensure_ok, except_pure_ok] at hsave
  obtain ⟨_, ⟨-, -, -, -, rfl⟩, rfl⟩ := hsave
  refine ⟨?_, _, rfl, .insert _ _ _⟩
  rw [findById_solo]
  simp only [Finmap.lookup_insert]
  rfl

/-- **A loaded period** is updated in the columns that its methods write. -/
theorem savedAs_loaded {d : Store} {id : Id} {row : FinancialPeriodRow}
    (hrow : d.financialPeriods.lookup id = some row) (calls : List FinancialPeriodMethod) :
    SavedAs d (callAll FinancialPeriodMethod.call (toDomain id row) calls)
      (callAll FinancialPeriodMethod.call (toDomain id row) calls).props := by
  obtain ⟨hid, hupdate⟩ := callAll_induction (p := FinancialPeriod.UpdatesRow id row)
    (fun hcall h => h.call hcall) (.loaded id row) calls
  generalize callAll FinancialPeriodMethod.call (toDomain id row) calls = p at hid hupdate
  subst hid
  intro d' hsave
  rcases save_ok hsave with ⟨row', hrow', rfl⟩ | ⟨hnone, -⟩
  · obtain rfl := Option.some.inj (hrow.symm.trans hrow')
    refine ⟨?_, _, rfl, .insert _ _ _⟩
    rw [findById_solo, hupdate]
    simp only [Finmap.lookup_insert]
    rfl
  · rw [hrow] at hnone
    cases hnone

end FinancialPeriodRepository

/-! ## Payroll runs -/

namespace PrismaPayrollRunRepository

variable {encryption : EncryptionService SerializedPayslipDetail} {random : Id → ℕ}
  {t t' : Table Id (PayrollRunRows encryption.Buffer)}

/-- After it is saved the run is loaded with these properties and payslips, and no other run has
changed. -/
def SavedAs (random : Id → ℕ) (t : Table Id (PayrollRunRows encryption.Buffer)) (r : PayrollRun)
    (props : PayrollRunProps) (payslips : List PayslipProps) : Prop :=
  ∀ t', save encryption random r t = .ok t' →
    findById encryption r.props.id t' = some (some (.reconstitute props payslips)) ∧
      SameElsewhere r.props.id t t'

/-- Every payslip becomes a row of the run, behind those that are there. -/
theorem lookup_createPayslips {runId : Id} {payslips : List PayslipProps}
    {rows : PayrollRunRows encryption.Buffer} (hrows : t.lookup runId = some rows)
    (hcreate : createPayslips encryption random runId payslips t = .ok t') :
    t'.lookup runId = some { rows with
        payslips := rows.payslips ++ payslips.map (payslipData encryption random) } ∧
      SameElsewhere runId t t' := by
  induction payslips generalizing t rows with
  | nil =>
    rw [createPayslips, except_pure_ok] at hcreate
    subst hcreate
    exact ⟨by rw [hrows, List.map_nil, List.append_nil], fun _ _ => rfl⟩
  | cons payslip payslips ih =>
    rw [createPayslips, except_bind_ok] at hcreate
    obtain ⟨t₁, ht₁, hcreate⟩ := hcreate
    simp only [createPayslip, except_bind_ok, except_pure_ok] at ht₁
    obtain ⟨-, -, -, -, -, -, rfl⟩ := ht₁
    rw [Table.update_of_lookup hrows] at hcreate
    obtain ⟨hlookup, hsame⟩ := ih (Finmap.lookup_insert t) hcreate
    refine ⟨?_, (SameElsewhere.insert _ _ _).trans hsame⟩
    rw [hlookup, List.map_cons, List.append_assoc, List.singleton_append]

/-- The rows of payslips that were made are read back. -/
theorem mapM_payslipData {payslips : List PayslipProps}
    (hmade : ∀ p ∈ payslips, MadePayslip encryption p) :
    (payslips.map (payslipData encryption random)).mapM (payslipToDomain encryption) =
      some payslips := by
  refine mapM_of_forall₂ (List.forall₂_map_left_iff.mpr (List.forall₂_same.mpr fun p hp => ?_))
  exact payslipToDomain_payslipData (hmade p hp).one_currency

/-- **A new run** is created with all its columns and payslips. -/
theorem savedAs_new {id : Id} {r : PayrollRun} {columns : PayrollRunColumns}
    (hnew : t.lookup id = none) (hr : r.Extends encryption id columns []) :
    SavedAs random t r { r.props with runMonth := r.props.runMonth.day } r.payslips := by
  obtain ⟨rfl, -, added, hadded, hmade, -⟩ := hr
  intro t' hsave
  rw [save, except_bind_ok] at hsave
  obtain ⟨t₁, ht₁, hsave⟩ := hsave
  simp only [upsertRun, hnew, except_bind_ok, except_pure_ok] at ht₁
  obtain ⟨-, -, rfl⟩ := ht₁
  have hlookup : (t.insert r.props.id
      (⟨{ r.props.toPayrollRunColumns with runMonth := r.props.runMonth.day }, []⟩ :
        PayrollRunRows encryption.Buffer)).lookup r.props.id = some _ := Finmap.lookup_insert t
  -- no employee has a payslip in the new run
  have hall : (r.payslips.filter fun p =>
      p.employeeId ∉ ([] : List (PayslipRow encryption.Buffer)).map PayslipRow.employeeId) =
        r.payslips := List.filter_eq_self.mpr fun _ _ => by simp
  simp only [payslipRowsOf, hlookup, Option.map_some, Option.getD_some, hall] at hsave
  obtain ⟨hrows, hsame⟩ := lookup_createPayslips hlookup hsave
  refine ⟨?_, (SameElsewhere.insert _ _ _).trans hsame⟩
  rw [List.nil_append] at hrows hadded
  rw [findById, hrows]
  simp only [hadded, mapM_payslipData hmade]
  rfl

/-- The employees of the payslips that are read are those of their rows. -/
theorem employeeIds_of_mapM {rows : List (PayslipRow encryption.Buffer)}
    {payslips : List PayslipProps} (h : rows.mapM (payslipToDomain encryption) = some payslips) :
    rows.map PayslipRow.employeeId = payslips.map PayslipProps.employeeId := by
  induction rows generalizing payslips with
  | nil =>
    cases h
    rfl
  | cons row rows ih =>
    rw [List.mapM_cons, Option.bind_eq_bind, Option.bind_eq_some_iff] at h
    obtain ⟨payslip, hrow, h⟩ := h
    obtain ⟨rest, hrest, h⟩ := Option.bind_eq_some_iff.mp h
    cases h
    rw [List.map_cons, List.map_cons, ih hrest, employeeId_of_payslipToDomain hrow]

/-- **A loaded run** is updated in the columns that its methods write, and the payslips that
were added become rows. -/
theorem savedAs_loaded {id : Id} {loaded : PayrollRun}
    (hloaded : findById encryption id t = some (some loaded))
    (calls : List (PayrollRunMethod encryption)) :
    SavedAs random t (callAll PayrollRunMethod.call loaded calls)
      (callAll PayrollRunMethod.call loaded calls).props
      (callAll PayrollRunMethod.call loaded calls).payslips := by
  rcases hrows : t.lookup id with _ | rows
  · rw [findById, hrows] at hloaded
    cases hloaded
  rw [findById, hrows] at hloaded
  simp only [Option.bind_eq_bind, Option.bind_eq_some_iff, Option.pure_def, Option.some.injEq]
    at hloaded
  obtain ⟨payslips, hpayslips, rfl⟩ := hloaded
  obtain ⟨hid, hupdate, added, hadded, hmade, hfresh⟩ := callAll_induction
    (p := PayrollRun.Extends encryption id rows.columns payslips)
    (fun hcall h => h.call hcall) (.loaded id rows.columns payslips) calls
  generalize callAll PayrollRunMethod.call
    (PayrollRun.reconstitute { rows.columns with id } payslips) calls = r at *
  subst hid
  intro t' hsave
  rw [save, except_bind_ok] at hsave
  obtain ⟨t₁, ht₁, hsave⟩ := hsave
  simp only [upsertRun, hrows, except_pure_ok] at ht₁
  subst ht₁
  have hlookup : (t.insert r.props.id { rows with
      columns := r.props.updateColumns rows.columns }).lookup r.props.id = some _ :=
    Finmap.lookup_insert t
  -- of the payslips in memory those are new that were added
  have hadd : (r.payslips.filter fun p =>
      p.employeeId ∉ rows.payslips.map PayslipRow.employeeId) = added := by
    rw [hadded, List.filter_append, employeeIds_of_mapM hpayslips, List.filter_eq_nil_iff.mpr,
      List.nil_append, List.filter_eq_self.mpr]
    · exact fun p hp => decide_eq_true (hfresh p hp)
    · intro p hp
      simp [List.mem_map_of_mem hp]
  have hids : payslipRowsOf (t.insert r.props.id { rows with
      columns := r.props.updateColumns rows.columns }) r.props.id = rows.payslips := by
    rw [payslipRowsOf, hlookup]
    rfl
  have hsave' : createPayslips encryption random r.props.id (r.payslips.filter fun p =>
      p.employeeId ∉ (payslipRowsOf (t.insert r.props.id { rows with
        columns := r.props.updateColumns rows.columns }) r.props.id).map PayslipRow.employeeId)
      (t.insert r.props.id { rows with columns := r.props.updateColumns rows.columns }) =
        .ok t' := hsave
  rw [hids, hadd] at hsave'
  obtain ⟨hrows', hsame⟩ := lookup_createPayslips hlookup hsave'
  refine ⟨?_, (SameElsewhere.insert _ _ _).trans hsame⟩
  rw [findById, hrows', hupdate]
  simp only [List.mapM_append, hpayslips, mapM_payslipData hmade, hadded]
  rfl

end PrismaPayrollRunRepository

/-! ## Salary structures -/

/-- `close` is the only method of a version, and writes its end only. -/
theorem SalaryStructure.props_closes (version : SalaryStructure) (closes : List JsDate) :
    ∃ effectiveTo, (closes.foldl .close version).props = { version.props with effectiveTo } := by
  induction closes generalizing version with
  | nil => exact ⟨version.props.effectiveTo, rfl⟩
  | cons effectiveTo closes ih => exact ih (version.close effectiveTo)

namespace PrismaSalaryStructureRepository

variable {encryption : EncryptionService (List SerializedSalaryLineItem)} {random : Id → ℕ}
  {employees : Finset Id} {rows rows' : List (SalaryStructureRow encryption.Buffer)}
  {employeeId : Id} {loaded : SalaryStructure}

/-- The version that is loaded has a row. -/
theorem row_of_loaded
    (hloaded : findActiveForEmployee encryption rows employeeId = some (some loaded)) :
    ∃ row ∈ rows, loaded.props.id = row.id ∧ loaded.props.employeeId = employeeId := by
  rcases hactive : activeRow rows employeeId with _ | row <;>
    rw [findActiveForEmployee, hactive] at hloaded
  · cases hloaded
  · obtain ⟨props, hprops, heq⟩ := Option.map_eq_some_iff.mp hloaded
    obtain rfl := Option.some.inj heq
    obtain ⟨hrow, hof, -⟩ := mem_of_activeRow hactive
    have hread := reads_of_toDomain hprops
    exact ⟨row, hrow, hread.id, hread.employeeId.trans hof⟩

/-- The table has one row of this version, which gives the version back. -/
def HoldsOnce (encryption : EncryptionService (List SerializedSalaryLineItem))
    (rows : List (SalaryStructureRow encryption.Buffer)) (props : SalaryStructureProps) : Prop :=
  (rowsOf rows props.id).map (toDomain encryption) = [some props]

/-- **A new version** is inserted with all its columns, however often it was closed. -/
theorem holdsOnce_save {version : SalaryStructure}
    (hsave : save encryption random employees version rows = .ok rows') :
    HoldsOnce encryption rows' (SalaryStructureRepository.toRow version.props) ∧
      ∀ id, id ≠ version.props.id → rowsOf rows' id = rowsOf rows id :=
  rowsOf_save hsave

/-- **A loaded version** is refused, whether it was closed or not. -/
theorem save_closes
    (hloaded : findActiveForEmployee encryption rows employeeId = some (some loaded))
    (closes : List JsDate) :
    save encryption random employees (closes.foldl .close loaded) rows =
      .error (.database "salary_structures_pkey") := by
  obtain ⟨row, hrow, hid, -⟩ := row_of_loaded hloaded
  obtain ⟨effectiveTo, hprops⟩ := SalaryStructure.props_closes loaded closes
  refine save_loaded hrow ?_
  rw [hprops]
  exact hid

/-- **A closed version** is stored with the version after it. -/
theorem holdsOnce_saveNextVersion (hkeys : (rows.map SalaryStructureRow.id).Nodup)
    (hloaded : findActiveForEmployee encryption rows employeeId = some (some loaded))
    (closes : List JsDate) {env : Env} {cmd : CreateSalaryStructureVersionCommand}
    (hsave : saveNextVersion encryption random employees (closes.foldl .close loaded)
      (SalaryStructure.createNextVersion env loaded cmd) rows = .ok rows') :
    HoldsOnce encryption rows' { (closes.foldl .close loaded).props with
        effectiveTo := (closes.foldl .close loaded).props.effectiveTo.map .day } ∧
      findActiveForEmployee encryption rows' employeeId =
        some (some (.reconstitute (SalaryStructureRepository.toRow
          (SalaryStructure.createNextVersion env loaded cmd).props))) ∧
      ∀ id, id ≠ loaded.props.id → id ≠ env.uuid → rowsOf rows' id = rowsOf rows id := by
  obtain ⟨effectiveTo, hprops⟩ := SalaryStructure.props_closes loaded closes
  obtain ⟨hprevious, -, hothers, hfound⟩ := rowsOf_saveNextVersion hkeys hloaded hprops
    (by rw [hprops]; rfl) (by rw [hprops]; rfl) rfl hsave
  refine ⟨hprevious, hfound, fun id hid hnew => hothers id ?_ hnew⟩
  rw [hprops]
  exact hid

end PrismaSalaryStructureRepository

/-! ## All of them -/

namespace Sample

/-- A service that leaves the line items readable. -/
def unsealedItems : EncryptionService (List SerializedSalaryLineItem) where
  Buffer := List SerializedSalaryLineItem
  encryptJson _ value := value
  decryptJson buffer := some buffer
  decrypt_encrypt _ _ := rfl

/-- The first version of employee 40, without line items. -/
def openVersion : SalaryStructureRow unsealedItems.Buffer :=
  ⟨70, 1, 40, 1, noon.day, none, [], noon⟩

theorem januaryPay_made :
    MadePayslip unsealed (Payslip.generated 80 noon januaryPay .NGN) :=
  have hmade : Payslip.generate 80 noon januaryPay = .ok (Payslip.generated 80 noon januaryPay .NGN) :=
    rfl
  .generated hmade

/-- A new run with one payslip, which is submitted. -/
def freshlySubmitted : PayrollRun :=
  callAll PayrollRunMethod.call (.create 60 1 100 noon 10 noon)
    [.addPayslip _ januaryPay_made, .submitForApproval]

end Sample

open PrismaSalaryStructureRepository in
/-- A version that is loaded and closed cannot be saved. -/
theorem closed_version_refused : ∃ loaded,
    findActiveForEmployee Sample.unsealedItems [Sample.openVersion] 40 = some (some loaded) ∧
      save Sample.unsealedItems id {40} (loaded.close Sample.noon) [Sample.openVersion] =
        .error (.database "salary_structures_pkey") :=
  ⟨_, rfl, save_loaded List.mem_cons_self rfl⟩

/-- **Saving and loading.** A new expense, period or payroll run, and one that was loaded and
had its methods called, comes back with its properties and payslips, and no other row is
written. A version of a salary structure comes back when it is new; one that was loaded is
stored with its successor. -/
theorem aggregates_come_back (encryption : EncryptionService SerializedPayslipDetail)
    (itemEncryption : EncryptionService (List SerializedSalaryLineItem)) (random : Id → ℕ) :
    (∀ (d : Store) (e : Expense), d.expenses.lookup e.props.id = none →
      ExpenseRepository.SavedAs d e { e.props with expenseDate := e.props.expenseDate.day }) ∧
    (∀ (d : Store) (id : Id) (e : Expense),
      (ExpenseRepository.findById id).solo d = .ok (some e, d) →
      ∀ calls : List (ExpenseMethod × JsDate),
        ExpenseRepository.SavedAs d (callAll ExpenseMethod.call e calls)
          (callAll ExpenseMethod.call e calls).props) ∧
    (∀ (d : Store) (p : FinancialPeriod), d.financialPeriods.lookup p.props.id = none →
      FinancialPeriodRepository.SavedAs d p { p.props with
        startDate := p.props.startDate.day, endDate := p.props.endDate.day }) ∧
    (∀ (d : Store) (id : Id) (p : FinancialPeriod),
      (FinancialPeriodRepository.findById id).solo d = .ok (some p, d) →
      ∀ calls : List FinancialPeriodMethod,
        FinancialPeriodRepository.SavedAs d (callAll FinancialPeriodMethod.call p calls)
          (callAll FinancialPeriodMethod.call p calls).props) ∧
    (∀ (t : Table Id (PayrollRunRows encryption.Buffer)) (id organizationId periodId : Id)
      (runMonth : JsDate) (createdById : Id) (now : JsDate), t.lookup id = none →
      ∀ (calls : List (PayrollRunMethod encryption)) (r : PayrollRun),
        r = callAll PayrollRunMethod.call
          (.create id organizationId periodId runMonth createdById now) calls →
        PrismaPayrollRunRepository.SavedAs random t r
          { r.props with runMonth := r.props.runMonth.day } r.payslips) ∧
    (∀ (t : Table Id (PayrollRunRows encryption.Buffer)) (id : Id) (loaded : PayrollRun),
      PrismaPayrollRunRepository.findById encryption id t = some (some loaded) →
      ∀ (calls : List (PayrollRunMethod encryption)) (r : PayrollRun),
        r = callAll PayrollRunMethod.call loaded calls →
        PrismaPayrollRunRepository.SavedAs random t r r.props r.payslips) ∧
    (∀ (employees : Finset Id) (rows rows' : List (SalaryStructureRow itemEncryption.Buffer))
      (version : SalaryStructure),
      PrismaSalaryStructureRepository.save itemEncryption random employees version rows =
        .ok rows' →
      PrismaSalaryStructureRepository.HoldsOnce itemEncryption rows'
          (SalaryStructureRepository.toRow version.props) ∧
        (∀ id, id ≠ version.props.id → PrismaSalaryStructureRepository.rowsOf rows' id =
          PrismaSalaryStructureRepository.rowsOf rows id) ∧
        (version.props.effectiveTo = none →
          (∀ r ∈ rows, r.employeeId = version.props.employeeId → r.effectiveTo = none →
            r.version < version.props.version) →
          PrismaSalaryStructureRepository.findActiveForEmployee itemEncryption rows'
            version.props.employeeId =
              some (some (.reconstitute (SalaryStructureRepository.toRow version.props))))) ∧
    (∀ (employees : Finset Id) (rows : List (SalaryStructureRow itemEncryption.Buffer))
      (employeeId : Id) (loaded : SalaryStructure) (closes : List JsDate),
      (rows.map SalaryStructureRow.id).Nodup →
      PrismaSalaryStructureRepository.findActiveForEmployee itemEncryption rows employeeId =
        some (some loaded) →
      PrismaSalaryStructureRepository.save itemEncryption random employees
          (closes.foldl .close loaded) rows = .error (.database "salary_structures_pkey") ∧
        ∀ (env : Env) (cmd : CreateSalaryStructureVersionCommand)
          (rows' : List (SalaryStructureRow itemEncryption.Buffer)),
          PrismaSalaryStructureRepository.saveNextVersion itemEncryption random employees
            (closes.foldl .close loaded) (.createNextVersion env loaded cmd) rows = .ok rows' →
          PrismaSalaryStructureRepository.HoldsOnce itemEncryption rows'
              { (closes.foldl .close loaded).props with
                effectiveTo := (closes.foldl .close loaded).props.effectiveTo.map .day } ∧
            PrismaSalaryStructureRepository.findActiveForEmployee itemEncryption rows'
              employeeId = some (some (.reconstitute (SalaryStructureRepository.toRow
                (SalaryStructure.createNextVersion env loaded cmd).props))) ∧
            ∀ id, id ≠ loaded.props.id → id ≠ env.uuid →
              PrismaSalaryStructureRepository.rowsOf rows' id =
                PrismaSalaryStructureRepository.rowsOf rows id) := by
  refine ⟨fun d e => ExpenseRepository.savedAs_new, ?_,
    fun d p => FinancialPeriodRepository.savedAs_new, ?_, ?_, ?_, ?_, ?_⟩
  · intro d id e hfound calls
    rw [ExpenseRepository.findById_solo, Except.ok.injEq, Prod.mk.injEq] at hfound
    obtain ⟨row, hrow, rfl⟩ := Option.map_eq_some_iff.mp hfound.1
    exact ExpenseRepository.savedAs_loaded hrow calls
  · intro d id p hfound calls
    rw [FinancialPeriodRepository.findById_solo, Except.ok.injEq, Prod.mk.injEq] at hfound
    obtain ⟨row, hrow, rfl⟩ := Option.map_eq_some_iff.mp hfound.1
    exact FinancialPeriodRepository.savedAs_loaded hrow calls
  · rintro t id organizationId periodId runMonth createdById now hnew calls r rfl
    have hextends : (callAll PayrollRunMethod.call
        (.create id organizationId periodId runMonth createdById now) calls).Extends encryption id
          ⟨organizationId, periodId, .draft, runMonth, createdById, none, none, now⟩ [] :=
      callAll_induction
        (p := PayrollRun.Extends encryption id
          ⟨organizationId, periodId, .draft, runMonth, createdById, none, none, now⟩ [])
        (fun hcall h => h.call hcall)
        (.created id organizationId periodId runMonth createdById now) calls
    exact PrismaPayrollRunRepository.savedAs_new hnew hextends
  · rintro t id loaded hloaded calls r rfl
    exact PrismaPayrollRunRepository.savedAs_loaded hloaded calls
  · intro employees rows rows' version hsave
    obtain ⟨hholds, hothers⟩ := PrismaSalaryStructureRepository.holdsOnce_save hsave
    exact ⟨hholds, hothers, PrismaSalaryStructureRepository.findActive_save hsave⟩
  · intro employees rows employeeId loaded closes hkeys hloaded
    exact ⟨PrismaSalaryStructureRepository.save_closes hloaded closes, fun env cmd rows' hsave =>
      PrismaSalaryStructureRepository.holdsOnce_saveNextVersion hkeys hloaded closes hsave⟩

open PrismaPayrollRunRepository in
/-- A new run that is submitted and saved, and a version that is loaded and closed twice. -/
theorem aggregates_come_back_sample :
    (∃ t', save Sample.unsealed id Sample.freshlySubmitted ∅ = .ok t' ∧
      findById Sample.unsealed 60 t' = some (some (.reconstitute
        { Sample.freshlySubmitted.props with runMonth := Sample.freshlySubmitted.props.runMonth.day }
        Sample.freshlySubmitted.payslips))) ∧
    PrismaSalaryStructureRepository.save Sample.unsealedItems id {40}
      ([Sample.noon, Sample.noon].foldl .close (.reconstitute ⟨70, 1, 40, 1, Sample.noon.day, none,
        [], Sample.noon⟩)) [Sample.openVersion] = .error (.database "salary_structures_pkey") := by
  obtain ⟨-, -, -, -, hrun, -, -, hversion⟩ :=
    aggregates_come_back Sample.unsealed Sample.unsealedItems id
  refine ⟨?_, ?_⟩
  · have hsaved : (save Sample.unsealed id Sample.freshlySubmitted ∅).toOption.isSome = true := by
      decide +kernel
    rcases hsave : save Sample.unsealed id Sample.freshlySubmitted ∅ with _ | t'
    · rw [hsave] at hsaved
      cases hsaved
    · exact ⟨t', rfl, (hrun ∅ 60 1 100 Sample.noon 10 Sample.noon rfl _ _ rfl t' hsave).1⟩
  · exact (hversion {40} [Sample.openVersion] 40 _ [Sample.noon, Sample.noon]
      (List.nodup_singleton _) rfl).1

end RatelPlatform
