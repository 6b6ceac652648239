import RatelPlatform.Commands
import RatelPlatform.Pacts
import RatelPlatform.WrittenRows

/-!
# The ledger

Of an expense, only the status and the time of the update ever change; of a payroll run, its
status, its approval, and the payslips it is given; of a period, its status and its closing.
The rest is an entry of the ledger: it is there for good (`Store.Keeps`).

It takes some care to say why. A save writes the amount and the references of an expense too,
as they were when the expense was loaded, and by then others may have saved it. They cannot
have changed them, for the same reason. And a new row does not replace another one, as its id
is new: each transaction draws its own.
-/

namespace RatelPlatform

/-! ## What is kept -/

namespace Table

variable {κ ρ : Type} [DecidableEq κ] {R : ρ → ρ → Prop} {t t' t'' : Table κ ρ}

/-- Every row is still there, up to what `R` lets change. -/
def Keeps (R : ρ → ρ → Prop) (t t' : Table κ ρ) : Prop :=
  ∀ k row, t.lookup k = some row → ∃ row', t'.lookup k = some row' ∧ R row row'

theorem Keeps.refl (hR : ∀ row, R row row) (t : Table κ ρ) : Keeps R t t :=
  fun _ row hrow => ⟨row, hrow, hR row⟩

theorem Keeps.trans (hR : ∀ {a b c}, R a b → R b c → R a c) (h : Keeps R t t')
    (h' : Keeps R t' t'') : Keeps R t t'' := by
  intro k row hrow
  obtain ⟨row', hrow', hR'⟩ := h k row hrow
  obtain ⟨row'', hrow'', hR''⟩ := h' k row' hrow'
  exact ⟨row'', hrow'', hR hR' hR''⟩

theorem Keeps.mem (h : Keeps R t t') {k : κ} (hk : k ∈ t) : k ∈ t' := by
  obtain ⟨row, hrow⟩ := Finmap.mem_iff.mp hk
  obtain ⟨row', hrow', -⟩ := h k row hrow
  exact Finmap.mem_of_lookup_eq_some hrow'

/-- A change of one row. -/
theorem keeps_update (hR : ∀ row, R row row) {k : κ} {f : ρ → ρ}
    (hf : ∀ row, t.lookup k = some row → R row (f row)) : Keeps R t (t.update k f) := by
  intro k' row hrow
  rw [lookup_update]
  split_ifs with hk
  · subst hk
    exact ⟨f row, by rw [hrow, Option.map_some], hf row hrow⟩
  · exact ⟨row, hrow, hR row⟩

/-- A row under a new key. -/
theorem keeps_insert (hR : ∀ row, R row row) {k : κ} (hk : k ∉ t) (row : ρ) :
    Keeps R t (t.insert k row) := by
  intro k' row' hrow'
  have hne : k' ≠ k := by
    rintro rfl
    exact hk (Finmap.mem_of_lookup_eq_some hrow')
  exact ⟨row', by rw [Finmap.lookup_insert_of_ne t hne, hrow'], hR row'⟩

end Table

/-- The same entry: all but the status and the time of the update. -/
def ExpenseRow.SameEntry (row row' : ExpenseRow) : Prop :=
  { row with status := row'.status, updatedAt := row'.updatedAt } = row'

/-- The same run: all but the status and the approval; payslips may have been added. -/
def PayrollRunRow.SameEntry (row row' : PayrollRunRow) : Prop :=
  { row.columns with
      status := row'.columns.status
      approvedById := row'.columns.approvedById
      approvedAt := row'.columns.approvedAt } = row'.columns ∧
    row.payslips <+: row'.payslips

/-- The same period: all but the status and the closing. -/
def FinancialPeriodRow.SameEntry (row row' : FinancialPeriodRow) : Prop :=
  { row with
      status := row'.status
      closedById := row'.closedById
      closedAt := row'.closedAt } = row'

/-- The same chain; decisions may have been added. -/
def ApprovalProgressRow.SameEntry (row row' : ApprovalProgressRow) : Prop :=
  row'.itemType = row.itemType ∧ row'.chain = row.chain ∧ row.records <+: row'.records

theorem ExpenseRow.SameEntry.refl (row : ExpenseRow) : row.SameEntry row := rfl

theorem ExpenseRow.SameEntry.trans {a b c : ExpenseRow} (h : a.SameEntry b) (h' : b.SameEntry c) :
    a.SameEntry c := by
  rw [SameEntry] at *
  rw [← h', ← h]

theorem ExpenseRow.SameEntry.symm {a b : ExpenseRow} (h : a.SameEntry b) : b.SameEntry a := by
  rw [SameEntry] at *
  rw [← h]

/-- Every other column is the same. -/
theorem ExpenseRow.SameEntry.column {β : Type} {a b : ExpenseRow} (h : a.SameEntry b)
    (column : ExpenseRow → β) (hcolumn : ∀ (row : ExpenseRow) status updatedAt,
      column { row with status := status, updatedAt := updatedAt } = column row) :
    column b = column a := by
  rw [SameEntry] at h
  rw [← h]
  exact hcolumn _ _ _

theorem PayrollRunRow.SameEntry.refl (row : PayrollRunRow) : row.SameEntry row :=
  ⟨rfl, List.prefix_refl _⟩

theorem PayrollRunRow.SameEntry.trans {a b c : PayrollRunRow} (h : a.SameEntry b)
    (h' : b.SameEntry c) : a.SameEntry c := by
  refine ⟨?_, h.2.trans h'.2⟩
  rw [← h'.1, ← h.1]

theorem FinancialPeriodRow.SameEntry.refl (row : FinancialPeriodRow) : row.SameEntry row := rfl

theorem FinancialPeriodRow.SameEntry.trans {a b c : FinancialPeriodRow} (h : a.SameEntry b)
    (h' : b.SameEntry c) : a.SameEntry c := by
  rw [SameEntry] at *
  rw [← h', ← h]

theorem ApprovalProgressRow.SameEntry.refl (row : ApprovalProgressRow) : row.SameEntry row :=
  ⟨rfl, rfl, List.prefix_refl _⟩

theorem ApprovalProgressRow.SameEntry.trans {a b c : ApprovalProgressRow} (h : a.SameEntry b)
    (h' : b.SameEntry c) : a.SameEntry c :=
  ⟨h'.1.trans h.1, h'.2.1.trans h.2.1, h.2.2.trans h'.2.2⟩

/-- Every entry is still there. -/
structure Store.Keeps (d d' : Store) : Prop where
  financialPeriods : Table.Keeps FinancialPeriodRow.SameEntry d.financialPeriods d'.financialPeriods
  expenses : Table.Keeps ExpenseRow.SameEntry d.expenses d'.expenses
  approvalProgress :
    Table.Keeps ApprovalProgressRow.SameEntry d.approvalProgress d'.approvalProgress
  payrollRuns : Table.Keeps PayrollRunRow.SameEntry d.payrollRuns d'.payrollRuns
  outbox : d.outbox <+: d'.outbox

theorem Store.Keeps.refl (d : Store) : d.Keeps d where
  financialPeriods := .refl .refl _
  expenses := .refl .refl _
  approvalProgress := .refl .refl _
  payrollRuns := .refl .refl _
  outbox := List.prefix_refl _

theorem Store.Keeps.trans {d d' d'' : Store} (h : d.Keeps d') (h' : d'.Keeps d'') :
    d.Keeps d'' where
  financialPeriods := h.financialPeriods.trans .trans h'.financialPeriods
  expenses := h.expenses.trans .trans h'.expenses
  approvalProgress := h.approvalProgress.trans .trans h'.approvalProgress
  payrollRuns := h.payrollRuns.trans .trans h'.payrollRuns
  outbox := h.outbox.trans h'.outbox

/-! ## The pact -/

/-- No period, expense or payroll run has the id. -/
def Store.Unused (d : Store) (id : Id) : Prop :=
  id ∉ d.financialPeriods ∧ id ∉ d.expenses ∧ id ∉ d.payrollRuns

/-- What a transaction that draws the id relies on: entries are kept, nobody else uses the id,
and nobody starts an approval whose lock it holds. -/
structure ReliesOn (uuid : Id) (held : Set RowLock) (d d' : Store) : Prop where
  keeps : d.Keeps d'
  unused : d.Unused uuid → d'.Unused uuid
  progress : ∀ id, .approvalProgress id ∈ held → id ∉ d.approvalProgress → id ∉ d'.approvalProgress

/-- What it guarantees in turn. -/
structure Guarantees (uuid : Id) (held : Set RowLock) (d d' : Store) : Prop where
  keeps : d.Keeps d'
  unused : ∀ id, id ≠ uuid → d.Unused id → d'.Unused id
  progress : ∀ id, .approvalProgress id ∉ held → id ∉ d.approvalProgress → id ∉ d'.approvalProgress

theorem ReliesOn.refl (uuid : Id) (held : Set RowLock) (d : Store) : ReliesOn uuid held d d :=
  ⟨.refl d, fun h => h, fun _ _ h => h⟩

theorem ReliesOn.trans {uuid : Id} {held : Set RowLock} {d d' d'' : Store}
    (h : ReliesOn uuid held d d') (h' : ReliesOn uuid held d' d'') : ReliesOn uuid held d d'' :=
  ⟨h.keeps.trans h'.keeps, fun hu => h'.unused (h.unused hu),
    fun id hid hp => h'.progress id hid (h.progress id hid hp)⟩

/-- With more locks there is more to rely on. -/
theorem ReliesOn.mono {uuid : Id} {held held' : Set RowLock} {d d' : Store} (hle : held ⊆ held')
    (h : ReliesOn uuid held' d d') : ReliesOn uuid held d d' :=
  ⟨h.keeps, h.unused, fun id hid => h.progress id (hle hid)⟩

/-- The pact of sessions that draw different ids. -/
def ledgerPact (uuids : ℕ → Id) (hdistinct : ∀ i j, uuids i = uuids j → i = j) :
    Pact Store RowLock where
  rely i := ReliesOn (uuids i)
  guarantee i := Guarantees (uuids i)
  refl i := .refl (uuids i)
  trans := .trans
  honoured := by
    intro i j held others d d' hne hothers h
    refine ⟨h.keeps, h.unused _ fun heq => hne (hdistinct _ _ heq).symm, fun id hid => ?_⟩
    exact h.progress id fun hheld => hothers _ hheld hid

/-! ## Where a transaction stands -/

/-- What a transaction has found, that entries which are kept keep true. -/
structure Finding where
  found : Store → Prop
  stable : ∀ {d d'}, d.Keeps d' → found d → found d'

namespace Finding

/-- Nothing has been found. -/
def nothing : Finding := ⟨fun _ => True, fun _ h => h⟩

/-- The expense was found with this row. -/
def expense (id : Id) (row : ExpenseRow) : Finding where
  found d := ∃ row', d.expenses.lookup id = some row' ∧ row.SameEntry row'
  stable := by
    rintro d d' h ⟨row', hrow', hsame⟩
    obtain ⟨row'', hrow'', hsame'⟩ := h.expenses id row' hrow'
    exact ⟨row'', hrow'', hsame.trans hsame'⟩

/-- The payroll run was found. -/
def payrollRun (id : Id) : Finding := ⟨fun d => id ∈ d.payrollRuns, fun h => h.payrollRuns.mem⟩

/-- The period was found. -/
def financialPeriod (id : Id) : Finding :=
  ⟨fun d => id ∈ d.financialPeriods, fun h => h.financialPeriods.mem⟩

end Finding

/-- A transaction that draws the id `uuid`, has a finding, has made rows with the ids `made`
and started the approvals of the items `begun`. -/
structure Stands (uuid : Id) (finding : Finding) (made begun : Set Id)
    (s : Standing Store RowLock) : Prop where
  found : finding.found s.since
  own : made ⊆ {uuid}
  unused : uuid ∉ made → s.since.Unused uuid
  locked : ∀ id ∈ begun, .approvalProgress id ∈ s.held
  keeps : ∀ d, ReliesOn uuid s.held s.since d → d.Keeps (s.patch d)
  makes : ∀ d id, id ∉ made → d.Unused id → (s.patch d).Unused id
  begins : ∀ d id, id ∉ begun → id ∉ d.approvalProgress → id ∉ (s.patch d).approvalProgress

/-- The change keeps all entries, makes no row and starts no approval, whatever there is. -/
structure Maintains (q : Store → Store) : Prop where
  keeps : ∀ d : Store, d.Keeps (q d)
  unused : ∀ (d : Store) id, d.Unused id → (q d).Unused id
  progress : ∀ (d : Store) id, id ∉ d.approvalProgress → id ∉ (q d).approvalProgress

namespace Stands

variable {uuid : Id} {finding : Finding} {made begun : Set Id} {s : Standing Store RowLock}

theorem start {d : Store} (hunused : d.Unused uuid) : Stands uuid .nothing ∅ ∅ (.start d) where
  found := trivial
  own := Set.empty_subset _
  unused _ := hunused
  locked _ h := h.elim
  keeps d _ := .refl d
  makes _ _ _ h := h
  begins _ _ _ h := h

/-- In the end, it does what it guarantees. -/
theorem guarantees (h : Stands uuid finding made begun s) {d : Store}
    (hd : ReliesOn uuid s.held s.since d) : Guarantees uuid s.held d (s.patch d) where
  keeps := h.keeps d hd
  unused id hne := h.makes d id fun hmade => hne (h.own hmade)
  progress id hheld := h.begins d id fun hbegun => hheld (h.locked id hbegun)

theorem since (h : Stands uuid finding made begun s) {d : Store}
    (hd : ReliesOn uuid s.held s.since d) :
    Stands uuid finding made begun { s with since := d } where
  found := finding.stable hd.keeps h.found
  own := h.own
  unused hmade := hd.unused (h.unused hmade)
  locked := h.locked
  keeps _ hd' := h.keeps _ (hd.trans hd')
  makes := h.makes
  begins := h.begins

/-- Something else is found. -/
theorem find (h : Stands uuid finding made begun s) {finding' : Finding}
    (hfound : finding'.found s.since) : Stands uuid finding' made begun s :=
  { h with found := hfound }

/-- **A statement**: what it changes is kept under the locks it holds then. -/
theorem write (h : Stands uuid finding made begun s) {d : Store}
    (hd : ReliesOn uuid s.held s.since d) {made' begun' : Set Id} {locks : Set RowLock}
    {q : Store → Store} (hmade : made ⊆ made') (hown : made' ⊆ {uuid}) (hbegun : begun ⊆ begun')
    (hlocked : ∀ id ∈ begun', .approvalProgress id ∈ s.held ∪ locks)
    (hkeeps : ∀ d', ReliesOn uuid (s.held ∪ locks) d d' → d'.Keeps (s.patch d') →
      (s.patch d').Keeps (q (s.patch d')))
    (hmakes : ∀ d id, id ∉ made' → d.Unused id → (q d).Unused id)
    (hbegins : ∀ d id, id ∉ begun' → id ∉ d.approvalProgress → id ∉ (q d).approvalProgress) :
    Stands uuid finding made' begun' ⟨s.held ∪ locks, fun d => q (s.patch d), d⟩ where
  found := finding.stable hd.keeps h.found
  own := hown
  unused hid := hd.unused (h.unused fun hid' => hid (hmade hid'))
  locked := hlocked
  keeps d' hd' := by
    have hpatch := h.keeps d' (hd.trans (hd'.mono Set.subset_union_left))
    exact hpatch.trans (hkeeps d' hd' hpatch)
  makes d' id hid hunused :=
    hmakes _ id hid (h.makes d' id (fun hid' => hid (hmade hid')) hunused)
  begins d' id hid hnone :=
    hbegins _ id hid (h.begins d' id (fun hid' => hid (hbegun hid')) hnone)

/-- A statement that maintains everything. -/
theorem maintain (h : Stands uuid finding made begun s) {d : Store}
    (hd : ReliesOn uuid s.held s.since d) {locks : Set RowLock} {q : Store → Store}
    (hq : Maintains q) :
    Stands uuid finding made begun ⟨s.held ∪ locks, fun d => q (s.patch d), d⟩ :=
  h.write hd subset_rfl h.own subset_rfl (fun id hid => .inl (h.locked id hid))
    (fun _ _ _ => hq.keeps _) (fun d id _ => hq.unused d id) fun d id _ => hq.progress d id

end Stands

/-- The change makes a row with the id, which must be unused. -/
structure Creates (uuid : Id) (q : Store → Store) : Prop where
  keeps : ∀ d : Store, d.Unused uuid → d.Keeps (q d)
  unused : ∀ (d : Store) id, id ≠ uuid → d.Unused id → (q d).Unused id
  progress : ∀ (d : Store) id, id ∉ d.approvalProgress → id ∉ (q d).approvalProgress

namespace Stands

variable {uuid : Id} {finding : Finding} {made begun : Set Id} {s : Standing Store RowLock}

/-- Before it has made a row, the id is unused for the transaction too. -/
theorem unusedAt (h : Stands uuid finding ∅ begun s) {d : Store}
    (hd : ReliesOn uuid s.held s.since d) : (s.patch d).Unused uuid :=
  h.makes d uuid (Set.notMem_empty uuid) (hd.unused (h.unused (Set.notMem_empty uuid)))

/-- A new row. -/
theorem create (h : Stands uuid finding ∅ begun s) {d : Store}
    (hd : ReliesOn uuid s.held s.since d) {locks : Set RowLock} {q : Store → Store}
    (hq : Creates uuid q) :
    Stands uuid finding {uuid} begun ⟨s.held ∪ locks, fun d => q (s.patch d), d⟩ :=
  h.write hd (Set.empty_subset _) subset_rfl subset_rfl (fun id hid => .inl (h.locked id hid))
    (fun _ hd' _ => hq.keeps _ (h.unusedAt (hd.trans (hd'.mono Set.subset_union_left))))
    (fun d id hid => hq.unused d id hid) fun d id _ => hq.progress d id

/-- The start of an approval: as the row is locked, nobody else can start it meanwhile. -/
theorem begin (h : Stands uuid finding made ∅ s) {d : Store} (hd : ReliesOn uuid s.held s.since d)
    {locks : Set RowLock} {id : Id} (hlock : .approvalProgress id ∈ locks)
    (hnone : id ∉ (s.patch d).approvalProgress) (row : ApprovalProgressRow) :
    Stands uuid finding made {id} ⟨s.held ∪ locks, fun d => { s.patch d with
      approvalProgress := (s.patch d).approvalProgress.insert id row }, d⟩ := by
  refine h.write (q := fun d => { d with approvalProgress := d.approvalProgress.insert id row }) hd
    subset_rfl h.own (Set.empty_subset _) ?_ (fun d' hd' _ => ?_) (fun _ _ _ hu => hu) ?_
  · rintro id' rfl
    exact .inr hlock
  · have hd'none : id ∉ d'.approvalProgress := by
      refine hd'.progress id (.inr hlock) fun hmem => hnone ?_
      exact (h.keeps d hd).approvalProgress.mem hmem
    exact { Store.Keeps.refl (s.patch d') with
      approvalProgress :=
        Table.keeps_insert .refl (h.begins d' id (Set.notMem_empty id) hd'none) row }
  · intro d' id' hid hnone' hmem
    exact (Finmap.mem_insert.mp hmem).elim hid hnone'

end Stands

/-! ## Changes -/

section

variable {id : Id}

theorem maintains_outbox (events : List DomainEvent) :
    Maintains fun d : Store => { d with outbox := d.outbox ++ events } where
  keeps d := { Store.Keeps.refl d with outbox := List.prefix_append _ _ }
  unused _ _ h := h
  progress _ _ h := h

theorem maintains_sequence (organizationId : Id) (n : ℕ) : Maintains fun d : Store =>
    { d with expenseNumberSequences := d.expenseNumberSequences.insert organizationId n } where
  keeps d := { Store.Keeps.refl d with }
  unused _ _ h := h
  progress _ _ h := h

theorem maintains_period {f : FinancialPeriodRow → FinancialPeriodRow}
    (hf : ∀ row : FinancialPeriodRow, row.SameEntry (f row)) :
    Maintains fun d : Store =>
      { d with financialPeriods := Table.update d.financialPeriods id f } where
  keeps d := { Store.Keeps.refl d with
    financialPeriods := Table.keeps_update .refl fun row _ => hf row }
  unused _ _ h := ⟨fun hmem => h.1 ((Table.mem_update _ _ _ _).mp hmem), h.2⟩
  progress _ _ h := h

theorem maintains_run {f : PayrollRunRow → PayrollRunRow}
    (hf : ∀ row : PayrollRunRow, row.SameEntry (f row)) :
    Maintains fun d : Store => { d with payrollRuns := Table.update d.payrollRuns id f } where
  keeps d := { Store.Keeps.refl d with
    payrollRuns := Table.keeps_update .refl fun row _ => hf row }
  unused _ _ h := ⟨h.1, h.2.1, fun hmem => h.2.2 ((Table.mem_update _ _ _ _).mp hmem)⟩
  progress _ _ h := h

theorem maintains_progress {f : ApprovalProgressRow → ApprovalProgressRow}
    (hf : ∀ row : ApprovalProgressRow, row.SameEntry (f row)) :
    Maintains fun d : Store =>
      { d with approvalProgress := Table.update d.approvalProgress id f } where
  keeps d := { Store.Keeps.refl d with
    approvalProgress := Table.keeps_update .refl fun row _ => hf row }
  unused _ _ h := h
  progress _ _ h := fun hmem => h ((Table.mem_update _ _ _ _).mp hmem)

theorem creates_period (row : FinancialPeriodRow) : Creates id fun d : Store =>
    { d with financialPeriods := d.financialPeriods.insert id row } where
  keeps d h := { Store.Keeps.refl d with financialPeriods := Table.keeps_insert .refl h.1 row }
  unused _ _ hne h := ⟨fun hmem => (Finmap.mem_insert.mp hmem).elim hne h.1, h.2⟩
  progress _ _ h := h

theorem creates_expense (row : ExpenseRow) : Creates id fun d : Store =>
    { d with expenses := d.expenses.insert id row } where
  keeps d h := { Store.Keeps.refl d with expenses := Table.keeps_insert .refl h.2.1 row }
  unused _ _ hne h := ⟨h.1, fun hmem => (Finmap.mem_insert.mp hmem).elim hne h.2.1, h.2.2⟩
  progress _ _ h := h

theorem creates_run (row : PayrollRunRow) : Creates id fun d : Store =>
    { d with payrollRuns := d.payrollRuns.insert id row } where
  keeps d h := { Store.Keeps.refl d with payrollRuns := Table.keeps_insert .refl h.2.2 row }
  unused _ _ hne h := ⟨h.1, h.2.1, fun hmem => (Finmap.mem_insert.mp hmem).elim hne h.2.2⟩
  progress _ _ h := h

end

end RatelPlatform
