import RatelPlatform.BigIntTexts
import RatelPlatform.Repositories

/-!
# Payslips as they are stored

The table of payslips has columns for the gross and the net pay, and one encrypted text for
the line items and the tax they were computed from. The store of the commands leaves this
out; here is `PrismaPayrollRunRepository` on the rows themselves. It does what the repository
of the commands does on the payslips the rows stand for (`save_refines`, `findById_refines`).
-/

namespace RatelPlatform

/-! ## Amounts as JSON -/

/-- `MoneyJSON` -/
structure MoneyJSON where
  minorUnits : String
  currency : String
  deriving DecidableEq

/-- `toJSON` -/
def Money.toJSON (m : Money) : MoneyJSON := ⟨.ofList (bigintText m.minorUnits), m.currency.name⟩

/-- `fromJSON`, unless `BigInt` or `Money.of` throws -/
def Money.fromJSON (json : MoneyJSON) : Option Money := do
  let minorUnits ← stringToBigInt (trim json.minorUnits)
  (Money.of minorUnits json.currency).toOption

/-- `BigInt` reads what `toString` wrote. -/
theorem stringToBigInt_bigintText (n : ℤ) : stringToBigInt (bigintText n) = some n := by
  have hdigits : ∀ c ∈ Nat.toDigits 10 n.natAbs, c.isDigit := fun c hc =>
    Nat.isDigit_of_mem_toDigits (by decide) (by decide) hc
  have hne : Nat.toDigits 10 n.natAbs ≠ [] := Nat.toDigits_ne_nil
  rw [bigintText]
  split_ifs with h
  · rw [stringToBigInt, digitsValue_ten hne hdigits, Nat.ofDigitChars_ten_toDigits, Option.map_some,
      Int.ofNat_eq_natCast]
    exact congrArg some (by omega)
  · rw [stringToBigInt_digits hne hdigits, Nat.ofDigitChars_ten_toDigits]
    exact congrArg some (by omega)

/-- A text without white space is left alone. -/
theorem trim_ofList {text : List Char} (h : ∀ c ∈ text, isJsSpace c = false) :
    trim (.ofList text) = text := by
  rw [trim, String.toList_ofList, List.dropWhile_eq_self_iff.mpr, List.rdropWhile_eq_self_iff.mpr]
  · exact fun hne => by simp [h _ (List.getLast_mem hne)]
  · exact fun hpos => by simp [h _ (List.getElem_mem hpos)]

theorem bigintText_not_space (n : ℤ) : ∀ c ∈ bigintText n, isJsSpace c = false := by
  have hdigits : ∀ c ∈ Nat.toDigits 10 n.natAbs, isJsSpace c = false := fun c hc =>
    isJsSpace_of_isDigit (Nat.isDigit_of_mem_toDigits (by decide) (by decide) hc)
  rw [bigintText]
  split_ifs
  · exact List.forall_mem_cons.mpr ⟨by decide, hdigits⟩
  · exact hdigits

theorem supportedCurrency_eq_some {value : String} {c : CurrencyCode} :
    supportedCurrency value = some c ↔ c.name = value := by
  refine ⟨?_, ?_⟩
  · intro h
    simpa using List.find?_some h
  · rintro rfl
    cases c <;> decide

theorem Money.of_name (n : ℤ) (c : CurrencyCode) : Money.of n c.name = .ok ⟨n, c⟩ := by
  rw [Money.of, supportedCurrency_eq_some.mpr rfl]

theorem CurrencyCode.name_injective : Function.Injective CurrencyCode.name := by
  intro c c' h
  exact Option.some.inj ((supportedCurrency_eq_some.mpr h).symm.trans
    (supportedCurrency_eq_some.mpr rfl))

/-- `Money.of` fails on the currencies that have no code. -/
theorem Money.of_ok_iff {n : ℤ} {currency : String} {m : Money} :
    Money.of n currency = .ok m ↔ m.currency.name = currency ∧ m.minorUnits = n := by
  refine ⟨?_, ?_⟩
  · intro h
    rw [Money.of] at h
    split at h
    · next c hc =>
      cases h
      exact ⟨supportedCurrency_eq_some.mp hc, rfl⟩
    · cases h
  · rintro ⟨rfl, rfl⟩
    exact Money.of_name _ _

/-- **Amounts survive**, whatever their sign and currency. -/
theorem Money.fromJSON_toJSON (m : Money) : Money.fromJSON m.toJSON = some m := by
  simp only [fromJSON, toJSON]
  rw [trim_ofList (bigintText_not_space _), stringToBigInt_bigintText, Option.bind_eq_bind,
    Option.bind_some, Money.of_name]
  rfl

/-! ## The encrypted detail -/

/-- `SerializedSalaryLineItem` -/
structure SerializedSalaryLineItem where
  kind : LineItemKind
  label : String
  amount : MoneyJSON

/-- `SerializedTaxComputation` -/
structure SerializedTaxComputation where
  strategy : String
  computedTax : MoneyJSON

/-- `SerializedPayslipDetail` -/
structure SerializedPayslipDetail where
  salaryStructureSnapshot : SalaryStructureSnapshot
  lineItems : List SerializedSalaryLineItem
  taxComputation : SerializedTaxComputation

/-- `serializeLineItems` -/
def serializeLineItems (items : List SalaryLineItem) : List SerializedSalaryLineItem :=
  items.map fun item => ⟨item.kind, item.label, item.amount.toJSON⟩

/-- `deserializeLineItems`, unless an amount cannot be read -/
def deserializeLineItems (items : List SerializedSalaryLineItem) : Option (List SalaryLineItem) :=
  items.mapM fun item => do
    let amount ← Money.fromJSON item.amount
    pure ⟨item.kind, item.label, amount⟩

/-- `serializeTaxComputation` -/
def serializeTaxComputation (tc : TaxComputation) : SerializedTaxComputation :=
  ⟨tc.strategy, tc.computedTax.toJSON⟩

/-- `deserializeTaxComputation`, unless the tax cannot be read -/
def deserializeTaxComputation (tc : SerializedTaxComputation) : Option TaxComputation := do
  let computedTax ← Money.fromJSON tc.computedTax
  pure ⟨tc.strategy, computedTax⟩

/-- `EncryptionService`: what is encrypted can be decrypted. Keys and initialization vectors
are drawn, so one value has many ciphertexts. -/
structure EncryptionService (α : Type) where
  /-- what is stored -/
  Buffer : Type
  encryptJson : (random : ℕ) → α → Buffer
  /-- nothing when the buffer does not authenticate -/
  decryptJson : Buffer → Option α
  decrypt_encrypt : ∀ random value, decryptJson (encryptJson random value) = some value

theorem deserialize_serializeLineItems (items : List SalaryLineItem) :
    deserializeLineItems (serializeLineItems items) = some items := by
  induction items with
  | nil => rfl
  | cons item items ih =>
    simp only [serializeLineItems, deserializeLineItems, List.map_cons, List.mapM_cons,
      Money.fromJSON_toJSON] at ih ⊢
    rw [ih]
    rfl

theorem deserialize_serializeTaxComputation (tc : TaxComputation) :
    deserializeTaxComputation (serializeTaxComputation tc) = some tc := by
  simp [deserializeTaxComputation, serializeTaxComputation, Money.fromJSON_toJSON]

/-! ## Rows -/

/-- A row of `payslips`. -/
structure PayslipRow (Buffer : Type) where
  id : Id
  employeeId : Id
  grossPayMinorUnits : ℤ
  netPayMinorUnits : ℤ
  currency : String
  encryptedDetail : Buffer
  createdAt : JsDate

/-- A row of `payroll_runs` with the rows of its payslips. -/
structure PayrollRunRows (Buffer : Type) where
  columns : PayrollRunColumns
  payslips : List (PayslipRow Buffer)

namespace PrismaPayrollRunRepository

variable (encryption : EncryptionService SerializedPayslipDetail) (random : Id → ℕ)

/-- The row `save` creates of a payslip. -/
def payslipData (payslip : PayslipProps) : PayslipRow encryption.Buffer where
  id := payslip.id
  employeeId := payslip.employeeId
  grossPayMinorUnits := payslip.grossPay.minorUnits
  netPayMinorUnits := payslip.netPay.minorUnits
  currency := payslip.grossPay.currency.name
  encryptedDetail := encryption.encryptJson (random payslip.id)
    { salaryStructureSnapshot := payslip.salaryStructureSnapshot
      lineItems := serializeLineItems payslip.lineItems
      taxComputation := serializeTaxComputation payslip.taxComputation }
  createdAt := payslip.createdAt

/-- The payslip `toDomain` makes of a row. -/
def payslipToDomain (row : PayslipRow encryption.Buffer) : Option PayslipProps := do
  let detail ← encryption.decryptJson row.encryptedDetail
  let lineItems ← deserializeLineItems detail.lineItems
  let taxComputation ← deserializeTaxComputation detail.taxComputation
  let grossPay ← (Money.of row.grossPayMinorUnits row.currency).toOption
  let netPay ← (Money.of row.netPayMinorUnits row.currency).toOption
  pure
    { id := row.id
      employeeId := row.employeeId
      salaryStructureSnapshot := detail.salaryStructureSnapshot
      lineItems, taxComputation, grossPay, netPay
      createdAt := row.createdAt }

/-- The rows of the payslips of a run. -/
def payslipRowsOf {Buffer : Type} (t : Table Id (PayrollRunRows Buffer)) (runId : Id) :
    List (PayslipRow Buffer) :=
  ((t.lookup runId).map PayrollRunRows.payslips).getD []

/-- Some run of the organization is of that month. -/
def MonthTaken {Buffer : Type} (t : Table Id (PayrollRunRows Buffer)) (organizationId : Id)
    (runMonth : JsDate) : Prop :=
  ∃ id ∈ t.keys, ((t.lookup id).any fun r =>
    r.columns.organizationId = organizationId ∧ r.columns.runMonth = runMonth)

instance {Buffer : Type} (t : Table Id (PayrollRunRows Buffer)) (organizationId : Id)
    (runMonth : JsDate) : Decidable (MonthTaken t organizationId runMonth) :=
  inferInstanceAs (Decidable (∃ id ∈ t.keys, _))

/-- The upsert of a run. -/
def upsertRun {Buffer : Type} (props : PayrollRunProps) (t : Table Id (PayrollRunRows Buffer)) :
    Except Failure (Table Id (PayrollRunRows Buffer)) :=
  match t.lookup props.id with
  | some old => pure (t.insert props.id { old with
      columns := { old.columns with
        status := props.status, approvedById := props.approvedById
        approvedAt := props.approvedAt } })
  | none => do
    ensure (¬ MonthTaken t props.organizationId props.runMonth.day)
      (.database "payroll_runs_organization_id_run_month_key")
    pure (t.insert props.id
      ⟨{ props.toPayrollRunColumns with runMonth := props.runMonth.day }, []⟩)

/-- The insertion of a row of a run. -/
def createPayslip {Buffer : Type} (runId : Id) (row : PayslipRow Buffer)
    (t : Table Id (PayrollRunRows Buffer)) : Except Failure (Table Id (PayrollRunRows Buffer)) := do
  ensure (FitsBigInt row.grossPayMinorUnits ∧ FitsBigInt row.netPayMinorUnits)
    (.database "pay out of range")
  ensure (row.netPayMinorUnits ≤ row.grossPayMinorUnits) (.database "chk_net_lte_gross")
  ensure (row.employeeId ∉ (payslipRowsOf t runId).map PayslipRow.employeeId)
    (.database "payslips_payroll_run_id_employee_id_key")
  pure (Table.update t runId fun run => { run with payslips := run.payslips ++ [row] })

/-- The loop over the payslips to insert. -/
def createPayslips (runId : Id) :
    List PayslipProps → Table Id (PayrollRunRows encryption.Buffer) →
      Except Failure (Table Id (PayrollRunRows encryption.Buffer))
  | [], t => pure t
  | payslip :: payslips, t => do
    let t ← createPayslip runId (payslipData encryption random payslip) t
    createPayslips runId payslips t

/-- `save` -/
def save (run : PayrollRun) (t : Table Id (PayrollRunRows encryption.Buffer)) :
    Except Failure (Table Id (PayrollRunRows encryption.Buffer)) := do
  let t ← upsertRun run.props t
  let existingIds := (payslipRowsOf t run.props.id).map PayslipRow.employeeId
  createPayslips encryption random run.props.id
    (run.payslips.filter fun p => p.employeeId ∉ existingIds) t

/-- `findById`, unless a payslip cannot be read -/
def findById (id : Id) (t : Table Id (PayrollRunRows encryption.Buffer)) :
    Option (Option PayrollRun) :=
  match t.lookup id with
  | none => some none
  | some rows => do
    let payslips ← rows.payslips.mapM (payslipToDomain encryption)
    pure (some (.reconstitute { rows.columns with id } payslips))

variable {encryption random}

/-- **A row gives back the payslip** it was made of, when gross and net pay have one currency:
the row has one column for it. -/
theorem payslipToDomain_payslipData {payslip : PayslipProps}
    (hcurrency : payslip.netPay.currency = payslip.grossPay.currency) :
    payslipToDomain encryption (payslipData encryption random payslip) = some payslip := by
  obtain ⟨id, employeeId, snapshot, lineItems, taxComputation, grossPay, ⟨net, _⟩, createdAt⟩ :=
    payslip
  obtain rfl : _ = grossPay.currency := hcurrency
  simp only [payslipToDomain, payslipData]
  rw [encryption.decrypt_encrypt, Option.bind_eq_bind, Option.bind_some,
    deserialize_serializeLineItems, Option.bind_eq_bind, Option.bind_some,
    deserialize_serializeTaxComputation, Money.of_name, Money.of_name]
  rfl

/-- The employee is not encrypted. -/
theorem employeeId_of_payslipToDomain {row : PayslipRow encryption.Buffer} {payslip : PayslipProps}
    (h : payslipToDomain encryption row = some payslip) : payslip.employeeId = row.employeeId := by
  simp only [payslipToDomain, Option.bind_eq_bind, Option.bind_eq_some_iff, Option.pure_def,
    Option.some.injEq] at h
  obtain ⟨_, -, _, -, _, -, _, -, _, -, rfl⟩ := h
  rfl

/-! ## The payslips the rows stand for -/

/-- The rows of a run stand for its payslips. -/
structure Stands (rows : PayrollRunRows encryption.Buffer) (row : PayrollRunRow) : Prop where
  columns : rows.columns = row.columns
  payslips : List.Forall₂ (fun r p => payslipToDomain encryption r = some p) rows.payslips
    row.payslips

/-- The rows stand for the payroll runs of the store. -/
def Refines (t : Table Id (PayrollRunRows encryption.Buffer)) (runs : Table Id PayrollRunRow) :
    Prop :=
  ∀ id, Option.Rel Stands (t.lookup id) (runs.lookup id)

variable {t t' : Table Id (PayrollRunRows encryption.Buffer)} {runs : Table Id PayrollRunRow}
  {d : Store}

theorem refines_empty :
    Refines (∅ : Table Id (PayrollRunRows encryption.Buffer)) ∅ :=
  fun _ => .none

theorem Refines.insert (h : Refines t runs) {id : Id} {rows : PayrollRunRows encryption.Buffer}
    {row : PayrollRunRow} (hrow : Stands rows row) :
    Refines (t.insert id rows) (runs.insert id row) := by
  intro id'
  rw [Table.lookup_insert_ite, Table.lookup_insert_ite]
  split_ifs
  · exact .some hrow
  · exact h id'

/-- A run is stored with its rows, or not at all. -/
theorem Refines.cases (h : Refines t runs) (id : Id) :
    (t.lookup id = none ∧ runs.lookup id = none) ∨
      ∃ rows row, t.lookup id = some rows ∧ runs.lookup id = some row ∧ Stands rows row := by
  have hid := h id
  rcases ht : t.lookup id with _ | rows <;> rcases hd : runs.lookup id with _ | row <;>
    rw [ht, hd] at hid
  · exact .inl ⟨rfl, rfl⟩
  · cases hid
  · cases hid
  · cases hid with
    | some hrow => exact .inr ⟨rows, row, rfl, rfl, hrow⟩

theorem Stands.employeeIds {rows : PayrollRunRows encryption.Buffer} {row : PayrollRunRow}
    (h : Stands rows row) :
    rows.payslips.map PayslipRow.employeeId = row.payslips.map PayslipProps.employeeId := by
  rw [← List.forall₂_eq_eq_eq, List.forall₂_map_left_iff, List.forall₂_map_right_iff]
  exact h.payslips.imp fun _ _ hrow => (employeeId_of_payslipToDomain hrow).symm

/-- The payslips are read one after the other. -/
theorem mapM_of_forall₂ {α β : Type} {f : α → Option β} {as : List α} {bs : List β}
    (h : List.Forall₂ (fun a b => f a = some b) as bs) : as.mapM f = some bs := by
  induction h with
  | nil => rfl
  | cons hhead _ ih =>
    rw [List.mapM_cons, hhead, ih]
    rfl

theorem Refines.employeeIds (h : Refines t d.payrollRuns) (id : Id) :
    (payslipRowsOf t id).map PayslipRow.employeeId =
      (PayrollRunRepository.payslipsOf d id).map PayslipProps.employeeId := by
  simp only [payslipRowsOf, PayrollRunRepository.payslipsOf]
  rcases h.cases id with ⟨ht, hd⟩ | ⟨rows, row, ht, hd, hrow⟩
  · rw [ht, hd]
    rfl
  · rw [ht, hd]
    exact hrow.employeeIds

theorem Refines.monthTaken_iff (h : Refines t d.payrollRuns) (organizationId : Id)
    (runMonth : JsDate) : MonthTaken t organizationId runMonth ↔
      PayrollRunRepository.MonthTaken d organizationId runMonth := by
  simp only [MonthTaken, PayrollRunRepository.MonthTaken, Table.mem_keys_iff]
  refine exists_congr fun id => ?_
  rcases h.cases id with ⟨ht, hd⟩ | ⟨rows, row, ht, hd, hrow⟩
  · simp [ht, hd]
  · simp [ht, hd, hrow.columns]

/-- **`findById`** answers with what the store holds. -/
theorem findById_refines (h : Refines t d.payrollRuns) (id : Id) :
    ∃ found, (PayrollRunRepository.findById id).solo d = .ok (found, d) ∧
      findById encryption id t = some found := by
  refine ⟨_, PayrollRunRepository.findById_solo id d, ?_⟩
  rw [findById]
  rcases h.cases id with ⟨ht, hd⟩ | ⟨rows, row, ht, hd, hrow⟩
  · rw [ht, hd]
    rfl
  · simp only [ht, hd, mapM_of_forall₂ hrow.payslips, hrow.columns]
    rfl

theorem upsertRun_refines (h : Refines t d.payrollRuns) {props : PayrollRunProps}
    (hsave : upsertRun props t = .ok t') : ∃ runs,
      (PayrollRunRepository.upsertRun props).solo d = .ok ((), { d with payrollRuns := runs }) ∧
        Refines t' runs := by
  rw [upsertRun] at hsave
  rcases h.cases props.id with ⟨ht, hd⟩ | ⟨rows, row, ht, hd, hrow⟩
  · simp only [ht, except_bind_ok, ensure_ok, except_pure_ok] at hsave
    obtain ⟨-, hmonth, rfl⟩ := hsave
    have hmem : props.id ∉ d.payrollRuns := Finmap.lookup_eq_none.mp hd
    refine ⟨d.payrollRuns.insert props.id
      ⟨{ props.toPayrollRunColumns with runMonth := props.runMonth.day }, []⟩, ?_,
      h.insert ⟨rfl, .nil⟩⟩
    rw [PayrollRunRepository.upsertRun, Tx.solo_exec_ok]
    refine ⟨fun d => { d with
      payrollRuns := d.payrollRuns.insert props.id
        ⟨{ props.toPayrollRunColumns with runMonth := props.runMonth.day }, []⟩ }, ?_, rfl⟩
    rw [if_neg hmem, except_bind_ok]
    exact ⟨(), ensure_ok.mpr fun htaken => hmonth ((h.monthTaken_iff _ _).mpr htaken), rfl⟩
  · simp only [ht, except_pure_ok] at hsave
    subst hsave
    refine ⟨_, PayrollRunRepository.upsertRun_existing hd, h.insert ⟨?_, hrow.payslips⟩⟩
    simp only [PayrollRunRepository.updateColumns, hrow.columns]

theorem createPayslip_refines (h : Refines t d.payrollRuns) {runId : Id} {payslip : PayslipProps}
    (hcurrency : payslip.netPay.currency = payslip.grossPay.currency)
    (hcreate : createPayslip runId (payslipData encryption random payslip) t = .ok t') : ∃ runs,
      (PayrollRunRepository.insertPayslip runId payslip).solo d =
        .ok ((), { d with payrollRuns := runs }) ∧ Refines t' runs := by
  simp only [createPayslip, except_bind_ok, ensure_ok, except_pure_ok] at hcreate
  obtain ⟨-, hfits, -, hle, -, hfresh, rfl⟩ := hcreate
  rw [h.employeeIds] at hfresh
  refine ⟨Table.update d.payrollRuns runId fun row =>
    { row with payslips := row.payslips ++ [payslip] }, ?_, ?_⟩
  · rw [PayrollRunRepository.insertPayslip, Tx.solo_exec_ok]
    refine ⟨fun d => { d with payrollRuns := Table.update d.payrollRuns runId fun row =>
      { row with payslips := row.payslips ++ [payslip] } }, ?_, rfl⟩
    simp only [except_bind_ok, ensure_ok]
    exact ⟨(), hfits, (), hle, (), hfresh, rfl⟩
  · rcases h.cases runId with ⟨ht, hd⟩ | ⟨rows, row, ht, hd, hrow⟩
    · simp only [Table.update, ht, hd]
      exact h
    · rw [Table.update_of_lookup ht, Table.update_of_lookup hd]
      refine h.insert ⟨hrow.columns, ?_⟩
      exact List.rel_append hrow.payslips (.cons (payslipToDomain_payslipData hcurrency) .nil)

theorem createPayslips_refines (h : Refines t d.payrollRuns) {runId : Id}
    {payslips : List PayslipProps}
    (hcurrency : ∀ p ∈ payslips, p.netPay.currency = p.grossPay.currency)
    (hcreate : createPayslips encryption random runId payslips t = .ok t') : ∃ runs,
      (PayrollRunRepository.insertPayslips runId payslips).solo d =
        .ok ((), { d with payrollRuns := runs }) ∧ Refines t' runs := by
  induction payslips generalizing t d with
  | nil =>
    rw [createPayslips, except_pure_ok] at hcreate
    exact ⟨_, rfl, hcreate ▸ h⟩
  | cons payslip payslips ih =>
    rw [createPayslips, except_bind_ok] at hcreate
    obtain ⟨t₁, ht₁, hcreate⟩ := hcreate
    obtain ⟨runs, hinsert, h₁⟩ := createPayslip_refines h (hcurrency _ List.mem_cons_self) ht₁
    obtain ⟨runs', hinserts, h'⟩ := ih (d := { d with payrollRuns := runs }) h₁
      (fun p hp => hcurrency p (List.mem_cons_of_mem _ hp)) hcreate
    refine ⟨runs', ?_, h'⟩
    rw [PayrollRunRepository.insertPayslips, Tx.solo_bind_of_ok hinsert, hinserts]

/-- **`save`** stores what the repository of the commands stores. -/
theorem save_refines (h : Refines t d.payrollRuns) {run : PayrollRun}
    (hcurrency : ∀ p ∈ run.payslips, p.netPay.currency = p.grossPay.currency)
    (hsave : save encryption random run t = .ok t') : ∃ runs,
      (PayrollRunRepository.save run).solo d = .ok ((), { d with payrollRuns := runs }) ∧
        Refines t' runs := by
  rw [save, except_bind_ok] at hsave
  obtain ⟨t₁, ht₁, hsave⟩ := hsave
  obtain ⟨runs, hupsert, h₁⟩ := upsertRun_refines h ht₁
  have hids := Refines.employeeIds (d := { d with payrollRuns := runs }) h₁ run.props.id
  simp only [hids] at hsave
  obtain ⟨runs', hinserts, h'⟩ := createPayslips_refines (d := { d with payrollRuns := runs }) h₁
    (fun p hp => hcurrency p (List.mem_of_mem_filter hp)) hsave
  refine ⟨runs', ?_, h'⟩
  rw [PayrollRunRepository.save, Tx.solo_bind_of_ok hupsert, Tx.solo_select_bind, hinserts]

end PrismaPayrollRunRepository

end RatelPlatform
