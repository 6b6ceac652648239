import RatelPlatform.Commands
import RatelPlatform.EncryptedPayslips

/-!
# What a payslip pays

`Payslip.generate` adds up the line items by kind and fails only when an amount has another
currency or the net pay comes out above the gross pay. A payslip that was generated is what
`generate` computes from its own line items and tax (`generate_again`), and encrypting these
beside the totals does not come between the two: every stored row recomputes.
-/

namespace RatelPlatform

/-- The sum of the line items of a kind. -/
def sumOf (kind : LineItemKind) (items : List SalaryLineItem) : ℤ :=
  ((items.filter fun l => l.kind = kind).map fun l => l.amount.minorUnits).sum

/-- The line item goes into one of the two sums of `generate`. -/
def SalaryLineItem.Counts (l : SalaryLineItem) : Prop :=
  l.kind = .allowance ∨ l.kind = .deduction ∨ l.kind = .loanRepayment

namespace Payslip

/-- Gross minus deductions, loan repayments and tax. -/
def netOf (input : GenerateInput) : ℤ :=
  sumOf .allowance input.lineItems - sumOf .deduction input.lineItems -
    sumOf .loanRepayment input.lineItems - input.taxComputation.computedTax.minorUnits

/-- Every amount that counts, and the tax, has the currency asked for. -/
def InCurrency (input : GenerateInput) (c : CurrencyCode) : Prop :=
  (∀ l ∈ input.lineItems, l.Counts → l.amount.currency = c) ∧
    input.taxComputation.computedTax.currency = c

/-- The payslip `generate` answers with. -/
def generated (id : Id) (now : JsDate) (input : GenerateInput) (c : CurrencyCode) :
    PayslipProps where
  id := id
  employeeId := input.employeeId
  salaryStructureSnapshot := input.salaryStructureSnapshot
  lineItems := input.lineItems
  taxComputation := input.taxComputation
  grossPay := ⟨sumOf .allowance input.lineItems, c⟩
  netPay := ⟨netOf input, c⟩
  createdAt := now

variable {id : Id} {now : JsDate} {input : GenerateInput} {p : PayslipProps}

/-- Deductions and loan repayments are added up together. -/
theorem sum_deductions (items : List SalaryLineItem) :
    ((items.filter fun l => l.kind = .deduction ∨ l.kind = .loanRepayment).map
      fun l => l.amount.minorUnits).sum = sumOf .deduction items + sumOf .loanRepayment items := by
  induction items with
  | nil => rfl
  | cons l items ih =>
    obtain ⟨kind, label, amount⟩ := l
    cases kind <;> simp [sumOf] at ih ⊢ <;> omega

/-- The two sums are over all items that count. -/
theorem inCurrency_iff {c : CurrencyCode} : InCurrency input c ↔
    (∀ l ∈ input.lineItems, l.kind = .allowance → l.amount.currency = c) ∧
      (∀ l ∈ input.lineItems, l.kind = .deduction ∨ l.kind = .loanRepayment →
        l.amount.currency = c) ∧ input.taxComputation.computedTax.currency = c := by
  simp only [InCurrency, SalaryLineItem.Counts, or_imp, imp_and, forall_and, and_assoc]

/-- **When a payslip is generated**, and which one. -/
theorem generate_ok_iff : generate id now input = .ok p ↔
    ∃ c : CurrencyCode, c.name = input.currency ∧ InCurrency input c ∧
      netOf input ≤ sumOf .allowance input.lineItems ∧ p = generated id now input c := by
  have hallowances : ((input.lineItems.filter fun l => l.kind = .allowance).map
      fun l => l.amount.minorUnits).sum = sumOf .allowance input.lineItems := rfl
  have hnet : sumOf .allowance input.lineItems + -(sumOf .deduction input.lineItems +
      sumOf .loanRepayment input.lineItems) + -input.taxComputation.computedTax.minorUnits =
        netOf input := by
    rw [netOf]
    omega
  simp only [generate, except_bind_ok, ensure_ok, except_pure_ok, Money.sumFrom_ok, Money.add_ok,
    Money.of_ok_iff, inCurrency_iff, List.forall_mem_map, List.mem_filter, decide_eq_true_eq,
    and_imp, List.map_map, Function.comp_def, Money.negate]
  refine ⟨?_, ?_⟩
  · rintro ⟨⟨_, c⟩, ⟨hc, rfl⟩, _, ⟨hallowed, rfl⟩, _, ⟨hdeducted, rfl⟩, _, ⟨-, rfl⟩, _,
      ⟨htax, rfl⟩, -, hle, rfl⟩
    simp only [hallowances, sum_deductions, zero_add, hnet, not_lt] at hle ⊢
    exact ⟨c, hc, ⟨hallowed, hdeducted, htax.symm⟩, hle, rfl⟩
  · rintro ⟨c, hc, ⟨hallowed, hdeducted, htax⟩, hle, rfl⟩
    refine ⟨⟨0, c⟩, ⟨hc, rfl⟩, _, ⟨hallowed, rfl⟩, _, ⟨hdeducted, rfl⟩, _, ⟨rfl, rfl⟩, _,
      ⟨htax.symm, rfl⟩, (), ?_, ?_⟩
    · simpa only [hallowances, sum_deductions, zero_add, hnet, not_lt] using hle
    · simp only [hallowances, sum_deductions, zero_add, hnet]
      rfl

/-- **When it fails**: another currency, or a net above the gross. A currency without a code is
another one than the tax's. -/
theorem generate_error_iff : (∃ e, generate id now input = .error e) ↔
    (∃ l ∈ input.lineItems, l.Counts ∧ l.amount.currency.name ≠ input.currency) ∨
      input.taxComputation.computedTax.currency.name ≠ input.currency ∨
      sumOf .allowance input.lineItems < netOf input := by
  have herror : (∃ e, generate id now input = .error e) ↔ ¬ ∃ p, generate id now input = .ok p := by
    rcases generate id now input with e | p <;> simp
  rw [herror, not_iff_comm]
  simp only [not_or, not_exists, not_and, not_not, not_lt, generate_ok_iff]
  refine ⟨?_, ?_⟩
  · rintro ⟨hitems, htax, hle⟩
    refine ⟨_, _, htax, ⟨fun l hl hcounts => ?_, rfl⟩, hle, rfl⟩
    exact CurrencyCode.name_injective ((hitems l hl hcounts).trans htax.symm)
  · rintro ⟨p, c, hc, ⟨hitems, htax⟩, hle, -⟩
    exact ⟨fun l hl hcounts => (congrArg _ (hitems l hl hcounts)).trans hc,
      (congrArg _ htax).trans hc, hle⟩

end Payslip

/-- What a payslip was, or could have been, generated from. -/
def PayslipProps.input (p : PayslipProps) : Payslip.GenerateInput :=
  ⟨p.employeeId, p.salaryStructureSnapshot, p.lineItems, p.taxComputation,
    p.grossPay.currency.name⟩

/-- **A generated payslip is generated again** from its own line items and tax. -/
theorem Payslip.generate_again {id : Id} {now : JsDate} {input : GenerateInput} {p : PayslipProps}
    (h : generate id now input = .ok p) : generate p.id p.createdAt p.input = .ok p := by
  obtain ⟨c, hc, hcurrency, hle, rfl⟩ := generate_ok_iff.mp h
  exact generate_ok_iff.mpr ⟨c, rfl, hcurrency, hle, rfl⟩

/-! ## Stored payslips -/

namespace PrismaPayrollRunRepository

variable {encryption : EncryptionService SerializedPayslipDetail} {random : Id → ℕ}
  {t t' : Table Id (PayrollRunRows encryption.Buffer)} {run : PayrollRun} {id runId : Id}
  {row : PayslipRow encryption.Buffer} {payslip : PayslipProps}

theorem payslipRowsOf_insert (t : Table Id (PayrollRunRows encryption.Buffer)) (runId id : Id)
    (rows : PayrollRunRows encryption.Buffer) : payslipRowsOf (t.insert runId rows) id =
      if id = runId then rows.payslips else payslipRowsOf t id := by
  rw [payslipRowsOf, Table.lookup_insert_ite]
  split_ifs
  · rfl
  · rfl

/-- The upsert of a run touches no payslip. -/
theorem upsertRun_ok {props : PayrollRunProps} (h : upsertRun props t = .ok t') :
    (∃ rows, t'.lookup props.id = some rows) ∧ ∀ id, payslipRowsOf t' id = payslipRowsOf t id := by
  rw [upsertRun] at h
  split at h
  · next old hold =>
    rw [except_pure_ok] at h
    subst h
    refine ⟨⟨_, Finmap.lookup_insert _⟩, fun id => ?_⟩
    rw [payslipRowsOf_insert]
    split_ifs with hid
    · rw [hid, payslipRowsOf, hold]
      rfl
    · rfl
  · next hnone =>
    simp only [except_bind_ok, except_pure_ok] at h
    obtain ⟨-, -, rfl⟩ := h
    refine ⟨⟨_, Finmap.lookup_insert _⟩, fun id => ?_⟩
    rw [payslipRowsOf_insert]
    split_ifs with hid
    · rw [hid, payslipRowsOf, hnone]
      rfl
    · rfl

/-- A row is inserted behind those of its run. -/
theorem createPayslip_ok (hrun : ∃ rows, t.lookup runId = some rows)
    (h : createPayslip runId row t = .ok t') : (∃ rows, t'.lookup runId = some rows) ∧
      ∀ id, payslipRowsOf t' id = payslipRowsOf t id ++ if id = runId then [row] else [] := by
  obtain ⟨rows, hrows⟩ := hrun
  simp only [createPayslip, except_bind_ok, except_pure_ok] at h
  obtain ⟨-, -, -, -, -, -, rfl⟩ := h
  rw [Table.update_of_lookup hrows]
  refine ⟨⟨_, Finmap.lookup_insert _⟩, fun id => ?_⟩
  rw [payslipRowsOf_insert]
  split_ifs with hid
  · rw [hid, payslipRowsOf, hrows]
    rfl
  · rw [List.append_nil]

theorem createPayslips_ok {payslips : List PayslipProps}
    (hrun : ∃ rows, t.lookup runId = some rows)
    (h : createPayslips encryption random runId payslips t = .ok t') (id : Id) :
    payslipRowsOf t' id = payslipRowsOf t id ++
      if id = runId then payslips.map (payslipData encryption random) else [] := by
  induction payslips generalizing t with
  | nil =>
    rw [createPayslips, except_pure_ok] at h
    rw [h, List.map_nil, ite_self, List.append_nil]
  | cons payslip payslips ih =>
    rw [createPayslips, except_bind_ok] at h
    obtain ⟨t₁, ht₁, h⟩ := h
    obtain ⟨hrun₁, hrows₁⟩ := createPayslip_ok hrun ht₁
    rw [ih hrun₁ h, hrows₁, List.append_assoc]
    split_ifs
    · rfl
    · rfl

/-- **What `save` writes**: rows for the payslips of employees that had none in the run. -/
theorem save_ok (h : save encryption random run t = .ok t') (id : Id) :
    payslipRowsOf t' id = payslipRowsOf t id ++
      if id = run.props.id then
        (run.payslips.filter fun p =>
          p.employeeId ∉ (payslipRowsOf t run.props.id).map PayslipRow.employeeId).map
            (payslipData encryption random)
      else [] := by
  rw [save, except_bind_ok] at h
  obtain ⟨t₁, ht₁, h⟩ := h
  obtain ⟨hrun, hrows⟩ := upsertRun_ok ht₁
  rw [createPayslips_ok hrun h, hrows, hrows]

/-- The row stands for the payslip, and the totals in its columns are those that `generate`
computes from the line items and the tax it decrypts to. -/
def Recomputes (row : PayslipRow encryption.Buffer) (p : PayslipProps) : Prop :=
  payslipToDomain encryption row = some p ∧
    ∃ q, Payslip.generate p.id p.createdAt p.input = .ok q ∧
      q.grossPay.minorUnits = row.grossPayMinorUnits ∧
      q.netPay.minorUnits = row.netPayMinorUnits ∧ q.grossPay.currency.name = row.currency

/-- A payslip the domain generated, as it is stored. -/
theorem recomputes_of_generate {now : JsDate} {input : Payslip.GenerateInput}
    (h : Payslip.generate id now input = .ok payslip) :
    Recomputes (payslipData encryption random payslip) payslip := by
  obtain ⟨c, -, -, -, hp⟩ := Payslip.generate_ok_iff.mp h
  refine ⟨payslipToDomain_payslipData ?_, payslip, Payslip.generate_again h, rfl, rfl, rfl⟩
  rw [hp]
  rfl

/-- A call of `save`, with what the encryption draws. -/
structure Saving where
  random : Id → ℕ
  run : PayrollRun

/-- The tables after a call of `save`, if it succeeds. -/
def afterSave (encryption : EncryptionService SerializedPayslipDetail)
    (t : Table Id (PayrollRunRows encryption.Buffer)) (saving : Saving) :
    Option (Table Id (PayrollRunRows encryption.Buffer)) :=
  (save encryption saving.random saving.run t).toOption

/-- The constructor of payslips is private: there are those `generate` makes, and those
`toDomain` makes of the rows of the run. -/
def FromDomain (t : Table Id (PayrollRunRows encryption.Buffer)) (saving : Saving) : Prop :=
  ∀ p ∈ saving.run.payslips,
    (∃ input, Payslip.generate p.id p.createdAt input = .ok p) ∨
      ∃ row ∈ payslipRowsOf t saving.run.props.id, payslipToDomain encryption row = some p

/-- Every row recomputes. -/
def AllRecompute (t : Table Id (PayrollRunRows encryption.Buffer)) : Prop :=
  ∀ id, ∀ row ∈ payslipRowsOf t id, ∃ p, Recomputes row p

/-- **A call of `save`** leaves no row that does not recompute. -/
theorem AllRecompute.next {saving : Saving} (h : AllRecompute t) (hdomain : FromDomain t saving)
    (hn : afterSave encryption t saving = some t') : AllRecompute t' := by
  have hsave : save encryption saving.random saving.run t = .ok t' := by
    rw [PrismaPayrollRunRepository.afterSave] at hn
    rcases hs : save encryption saving.random saving.run t with e | t₁ <;> rw [hs] at hn
    · cases hn
    · cases hn
      rfl
  intro id row hrow
  rw [save_ok hsave] at hrow
  rcases List.mem_append.mp hrow with hrow | hrow
  · exact h id row hrow
  · split_ifs at hrow
    · obtain ⟨p, hp, rfl⟩ := List.mem_map.mp hrow
      obtain ⟨hmem, hnew⟩ := List.mem_filter.mp hp
      rcases hdomain p hmem with ⟨input, hgenerate⟩ | ⟨stored, hstored, hload⟩
      · exact ⟨p, recomputes_of_generate hgenerate⟩
      · -- what was loaded has its row already
        refine absurd ?_ (of_decide_eq_true hnew)
        rw [employeeId_of_payslipToDomain hload]
        exact List.mem_map_of_mem hstored
    · cases hrow

/-- `findById` of a table whose rows recompute. -/
theorem AllRecompute.findById (h : AllRecompute t) {rows : PayrollRunRows encryption.Buffer}
    (hrows : t.lookup id = some rows) : ∃ run, findById encryption id t = some (some run) ∧
      List.Forall₂ Recomputes rows.payslips run.payslips := by
  have hmem : ∀ row ∈ rows.payslips, ∃ p, Recomputes row p := by
    intro row hrow
    refine h id row ?_
    rwa [payslipRowsOf, hrows]
  obtain ⟨payslips, hpayslips⟩ : ∃ payslips, List.Forall₂ Recomputes rows.payslips payslips := by
    clear hrows
    generalize rows.payslips = stored at hmem
    induction stored with
    | nil => exact ⟨[], .nil⟩
    | cons row stored ih =>
      obtain ⟨p, hp⟩ := hmem row List.mem_cons_self
      obtain ⟨payslips, hpayslips⟩ := ih fun r hr => hmem r (List.mem_cons_of_mem _ hr)
      exact ⟨p :: payslips, .cons hp hpayslips⟩
  refine ⟨.reconstitute { rows.columns with id } payslips, ?_, hpayslips⟩
  simp only [PrismaPayrollRunRepository.findById, hrows,
    mapM_of_forall₂ (hpayslips.imp fun _ _ hrow => hrow.1)]
  rfl

end PrismaPayrollRunRepository

open PrismaPayrollRunRepository in
/-- **Totals**: a payslip fails to be generated for another currency or a net above the gross
only, and otherwise has the totals of its line items; in whatever order payroll runs are saved,
the rows found later have the totals of the line items and the tax they decrypt to. -/
theorem payslip_totals (encryption : EncryptionService SerializedPayslipDetail) :
    (∀ id now input, (∃ e, Payslip.generate id now input = .error e) ↔
      (∃ l ∈ input.lineItems, l.Counts ∧ l.amount.currency.name ≠ input.currency) ∨
        input.taxComputation.computedTax.currency.name ≠ input.currency ∨
        sumOf .allowance input.lineItems < Payslip.netOf input) ∧
      (∀ id now input p, Payslip.generate id now input = .ok p →
        p.grossPay.minorUnits = sumOf .allowance input.lineItems ∧
          p.netPay.minorUnits = p.grossPay.minorUnits - sumOf .deduction input.lineItems -
            sumOf .loanRepayment input.lineItems -
            input.taxComputation.computedTax.minorUnits) ∧
      ∀ savings t, Reaches (afterSave encryption) FromDomain ∅ savings t →
        ∀ id rows, t.lookup id = some rows →
          ∃ run, findById encryption id t = some (some run) ∧
            List.Forall₂ Recomputes rows.payslips run.payslips := by
  refine ⟨fun _ _ _ => Payslip.generate_error_iff, fun id now input p h => ?_,
    fun savings t hr id rows hrows => ?_⟩
  · obtain ⟨c, -, -, -, rfl⟩ := Payslip.generate_ok_iff.mp h
    exact ⟨rfl, rfl⟩
  · have hall : AllRecompute t :=
      hr.invariant (fun _ _ hrow => absurd hrow List.not_mem_nil)
        fun _ _ _ h hdomain hn => AllRecompute.next h hdomain hn
    exact hall.findById hrows

namespace Sample

/-- A service that leaves the value readable beside what it drew. -/
def unsealed : EncryptionService SerializedPayslipDetail where
  Buffer := ℕ × SerializedPayslipDetail
  encryptJson random value := (random, value)
  decryptJson buffer := some buffer.2
  decrypt_encrypt _ _ := rfl

/-- 3000.00 naira, less 200.00, a repayment of 50.00 and a tax of 10.00. -/
def januaryPay : Payslip.GenerateInput where
  employeeId := 40
  salaryStructureSnapshot := ⟨70, 1, [], []⟩
  lineItems := [⟨.allowance, "Base", ⟨300000, .NGN⟩⟩, ⟨.deduction, "Pension", ⟨20000, .NGN⟩⟩,
    ⟨.loanRepayment, "Loan", ⟨5000, .NGN⟩⟩]
  taxComputation := ⟨"flat", ⟨1000, .NGN⟩⟩
  currency := "NGN"

/-- A run with this payslip is saved. -/
def januaryPaid : PrismaPayrollRunRepository.Saving where
  random := fun id => id + 7
  run := { PayrollRun.create 60 1 100 noon 10 noon with
    payslips := [Payslip.generated 80 noon januaryPay .NGN] }

end Sample

open PrismaPayrollRunRepository in
/-- The one payslip of a run that is saved and found. -/
theorem payslip_totals_sample : ∃ t rows run,
    Reaches (afterSave Sample.unsealed) FromDomain ∅ [Sample.januaryPaid] t ∧
      t.lookup 60 = some rows ∧ rows.payslips.map PayslipRow.netPayMinorUnits = [274000] ∧
      findById Sample.unsealed 60 t = some (some run) ∧
      List.Forall₂ Recomputes rows.payslips run.payslips := by
  have hsaved : (afterSave Sample.unsealed ∅ Sample.januaryPaid).map (fun t =>
      (t.lookup 60).map fun rows => rows.payslips.map PayslipRow.netPayMinorUnits) =
        some (some [274000]) := by
    decide +kernel
  obtain ⟨t, ht, hnet⟩ := Option.map_eq_some_iff.mp hsaved
  obtain ⟨rows, hrows, hnet⟩ := Option.map_eq_some_iff.mp hnet
  have hdomain : FromDomain (∅ : Table Id (PayrollRunRows Sample.unsealed.Buffer))
      Sample.januaryPaid := by
    intro p hp
    obtain rfl := List.mem_singleton.mp hp
    exact .inl ⟨Sample.januaryPay, rfl⟩
  have hr : Reaches (afterSave Sample.unsealed) FromDomain ∅ ([] ++ [Sample.januaryPaid]) t :=
    .snoc .nil hdomain ht
  obtain ⟨run, hfound, hrecomputes⟩ :=
    (payslip_totals Sample.unsealed).2.2 [Sample.januaryPaid] t hr 60 rows hrows
  exact ⟨t, rows, run, hr, hrows, hnet, hfound, hrecomputes⟩

end RatelPlatform
