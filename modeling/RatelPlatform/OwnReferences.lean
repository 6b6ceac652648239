import RatelPlatform.ReferenceData
import RatelPlatform.PayrollTenancy

/-!
# What an expense refers to

An expense refers to a department and a category, perhaps to a vendor and a project, to a
financial period, and as an adjustment to the expense it adjusts. The foreign keys do not
ask whose these are: people's creations and those of the import jobs look each reference up
among the organization's own rows, and an adjustment copies those of an expense of the
organization.

Nothing that is referred to goes away or changes its organization (`KeepsReferences`), so
every expense keeps to its organization, on the whole platform and for good
(`references_within`).
-/

namespace RatelPlatform

/-- The row is one of the organization. -/
def OfOrganization (rows : List ReferenceRow) (id organizationId : Id) : Prop :=
  ∃ r ∈ rows, r.id = id ∧ r.organizationId = organizationId

theorem OfOrganization.of_hasActive {rows : List ReferenceRow} {id organizationId : Id}
    (h : HasActive rows id organizationId) : OfOrganization rows id organizationId := by
  obtain ⟨r, hr, hid, horg, -⟩ := h
  exact ⟨r, hr, hid, horg⟩

/-- All that the expense refers to belongs to its organization. -/
structure ExpenseRow.RefersWithin (row : ExpenseRow) (d : Store) : Prop where
  department : OfOrganization d.administration.departments row.departmentId row.organizationId
  category : OfOrganization d.administration.expenseCategories row.categoryId row.organizationId
  vendor : ∀ id ∈ row.vendorId, OfOrganization d.administration.vendors id row.organizationId
  project : ∀ id ∈ row.projectId, OfOrganization d.administration.projects id row.organizationId
  period : ∃ p ∈ d.financialPeriods.lookup row.periodId, p.organizationId = row.organizationId
  parent : ∀ id ∈ row.parentExpenseId,
    ∃ p ∈ d.expenses.lookup id, p.organizationId = row.organizationId

/-- Every expense keeps to its organization. -/
def Store.RefersWithin (d : Store) : Prop :=
  ∀ id row, d.expenses.lookup id = some row → row.RefersWithin d

/-- The reference data stays where it is, in the same organizations. -/
def KeepsRows (a a' : Administration) : Prop :=
  ∀ (type : ReferenceDataType), ∀ r ∈ type.rows a,
    ∃ r' ∈ type.rows a', r'.id = r.id ∧ r'.organizationId = r.organizationId

theorem KeepsRows.refl (a : Administration) : KeepsRows a a := fun _ r hr => ⟨r, hr, rfl, rfl⟩

theorem KeepsRows.ofOrganization {a a' : Administration} (h : KeepsRows a a')
    (type : ReferenceDataType) {id organizationId : Id}
    (hof : OfOrganization (type.rows a) id organizationId) :
    OfOrganization (type.rows a') id organizationId := by
  obtain ⟨r, hr, rfl, rfl⟩ := hof
  exact h type r hr

/-- What expenses refer to stays where it is, in the same organizations. -/
structure KeepsReferences (d d' : Store) : Prop where
  rows : KeepsRows d.administration d'.administration
  periods : ∀ id p, d.financialPeriods.lookup id = some p →
    ∃ p', d'.financialPeriods.lookup id = some p' ∧ p'.organizationId = p.organizationId
  expenses : ∀ id row, d.expenses.lookup id = some row →
    ∃ row', d'.expenses.lookup id = some row' ∧ row.SameBut row'

section

variable {d d' : Store} {row : ExpenseRow} {env : Env}

/-- Only the reference data changes. -/
theorem KeepsReferences.of_rows (hrows : KeepsRows d.administration d'.administration)
    (hperiods : d'.financialPeriods = d.financialPeriods) (hexpenses : d'.expenses = d.expenses) :
    KeepsReferences d d' where
  rows := hrows
  periods := fun _ p hp => ⟨p, hperiods ▸ hp, rfl⟩
  expenses := fun _ row hrow => ⟨row, hexpenses ▸ hrow, .refl row⟩

theorem ExpenseRow.SameBut.organizationId {row' : ExpenseRow} (h : row.SameBut row') :
    row'.organizationId = row.organizationId := by
  obtain ⟨_, _, rfl⟩ := h
  rfl

/-- What keeps the references keeps an expense within its organization. -/
theorem ExpenseRow.RefersWithin.mono (h : row.RefersWithin d) (hkeeps : KeepsReferences d d') :
    row.RefersWithin d' where
  department := hkeeps.rows.ofOrganization .department h.department
  category := hkeeps.rows.ofOrganization .expenseCategory h.category
  vendor := fun id hid => hkeeps.rows.ofOrganization .vendor (h.vendor id hid)
  project := fun id hid => hkeeps.rows.ofOrganization .project (h.project id hid)
  period := by
    obtain ⟨p, hp, horg⟩ := h.period
    obtain ⟨p', hp', horg'⟩ := hkeeps.periods _ p hp
    exact ⟨p', hp', horg'.trans horg⟩
  parent := by
    intro id hid
    obtain ⟨p, hp, horg⟩ := h.parent id hid
    obtain ⟨p', hp', hsame⟩ := hkeeps.expenses id p hp
    exact ⟨p', hp', hsame.organizationId.trans horg⟩

/-- An update of an expense changes no reference. -/
theorem ExpenseRow.RefersWithin.of_sameBut {row' : ExpenseRow} (h : row.RefersWithin d)
    (hsame : row.SameBut row') : row'.RefersWithin d := by
  obtain ⟨_, _, rfl⟩ := hsame
  exact ⟨h.department, h.category, h.vendor, h.project, h.period, h.parent⟩

theorem Store.PeriodIsOpen.ofOrganization {organizationId periodId : Id}
    (h : d.PeriodIsOpen organizationId periodId) :
    ∃ p ∈ d.financialPeriods.lookup periodId, p.organizationId = organizationId := by
  obtain ⟨p, hp, horg, -⟩ := h
  exact ⟨p, hp, horg⟩

/-! ## New expenses -/

/-- **A creation** looks every reference up among the rows of the organization. -/
theorem createExpense_refersWithin {cmd : CreateExpenseCommand} {a : Id × String}
    (hfresh : d.expenses.lookup env.uuid = none)
    (h : (createExpense env cmd).solo d = .ok (a, d')) :
    ∃ row, d'.expenses = d.expenses.insert env.uuid row ∧ row.RefersWithin d := by
  simp only [createExpense, Tx.solo_bind_ok, assertActive_ok, assertActiveIfGiven_ok,
    Tx.solo_ofExcept_ok, enqueue_ok, Tx.pure_eq, Tx.solo_ret] at h
  obtain ⟨period, _, hperiod, _, _, ⟨hdepartment, rfl⟩, _, _, ⟨hcategory, rfl⟩, _, _,
    ⟨hvendor, rfl⟩, _, _, ⟨hproject, rfl⟩, number, _, hnumber, amount, _, ⟨-, rfl⟩, e, _,
    ⟨hcreate, rfl⟩, _, _, hsave, _, _, rfl, hret⟩ := h
  obtain ⟨rfl, hopen⟩ := requireOpenPeriod_ok hperiod
  obtain ⟨sequences, rfl⟩ := ExpenseRepository.nextExpenseNumber_ok hnumber
  obtain ⟨-, rfl⟩ := Expense.create_ok.mp hcreate
  obtain ⟨-, rfl⟩ := ExpenseRepository.save_new_ok hfresh hsave
  cases hret
  refine ⟨_, rfl, .of_hasActive hdepartment, .of_hasActive hcategory,
    fun id hid => .of_hasActive (hvendor id hid), fun id hid => .of_hasActive (hproject id hid),
    hopen.ofOrganization, ?_⟩
  -- what is created here adjusts nothing
  rintro _ ⟨⟩

/-- **An adjustment** refers to what the expense it adjusts refers to, and to that expense. -/
theorem createAdjustment_refersWithin {cmd : CreateAdjustmentCommand} {a : Id}
    (hwithin : d.RefersWithin) (hfresh : d.expenses.lookup env.uuid = none)
    (h : (createAdjustment env cmd).solo d = .ok (a, d')) :
    ∃ row, d'.expenses = d.expenses.insert env.uuid row ∧ row.RefersWithin d := by
  obtain ⟨original, periodId, number, _, horiginal, horg, hopen, -, -, -, -, rfl⟩ :=
    createAdjustment_ok hfresh h
  have hrefers := hwithin _ original horiginal
  refine ⟨_, rfl, hrefers.department, hrefers.category, hrefers.vendor, hrefers.project, ?_, ?_⟩
  · obtain ⟨p, hp, hporg⟩ := hopen.ofOrganization
    exact ⟨p, hp, hporg.trans horg.symm⟩
  · rintro _ ⟨⟩
    exact ⟨original, horiginal, rfl⟩

/-! ## Commands -/

/-- **A command** keeps what expenses refer to, unless it is one of the administrators. -/
theorem keepsReferences_next {request : Request} (hwf : d.WellFormed)
    (hn : RatelPlatform.next d request = some d')
    (hadminister : ∀ a, request.command = .administer a → KeepsRows d.administration a) :
    KeepsReferences d d' := by
  refine ⟨?_, ?_, (expenses_next hwf hn).1⟩
  · obtain ⟨hfresh, ⟨-, rfl⟩ | h⟩ := next_cases hn
    · exact .refl _
    obtain ⟨env, command⟩ := request
    cases command with
    | administer a =>
      obtain ⟨_, hp, rfl⟩ := Tx.solo_exec_ok.mp h
      cases hp
      exact hadminister a rfl
    | period cmd =>
      obtain ⟨_, _, rfl⟩ := PeriodCommand.frame h
      exact .refl _
    | expense cmd =>
      rw [(ExpenseCommand.frame hwf.aligned hfresh h).1]
      exact .refl _
    | payroll cmd =>
      rw [(PayrollCommand.frame hwf.aligned
        (fun _ => Finmap.lookup_eq_none.mpr hfresh.2.2.2) h).1]
      exact .refl _
  · intro id p hp
    obtain ⟨hfresh, ⟨-, rfl⟩ | h⟩ := next_cases hn
    · exact ⟨p, hp, rfl⟩
    obtain ⟨env, command⟩ := request
    cases command with
    | administer a =>
      obtain ⟨_, hpatch, rfl⟩ := Tx.solo_exec_ok.mp h
      cases hpatch
      exact ⟨p, hp, rfl⟩
    | period cmd => exact (PeriodCommand.writes hfresh h).keeps hp
    | expense cmd =>
      rw [(ExpenseCommand.frame hwf.aligned hfresh h).2.1]
      exact ⟨p, hp, rfl⟩
    | payroll cmd =>
      rw [(PayrollCommand.frame hwf.aligned
        (fun _ => Finmap.lookup_eq_none.mpr hfresh.2.2.2) h).2.1]
      exact ⟨p, hp, rfl⟩

/-- **A command** keeps every expense within its organization. -/
theorem Store.RefersWithin.next (hwithin : d.RefersWithin) {request : Request}
    (hwf : d.WellFormed) (hn : RatelPlatform.next d request = some d')
    (hkeeps : KeepsReferences d d') : d'.RefersWithin := by
  intro id row' hrow'
  rcases (expenses_next hwf hn).2 id row' hrow' with ⟨row, hrow, hsame⟩ | ⟨hnone, rfl, -⟩
  · exact ((hwithin id row hrow).of_sameBut hsame).mono hkeeps
  · obtain ⟨-, ⟨cmd, a, -, hok⟩ | ⟨cmd, a, -, hok⟩⟩ := request_of_new hwf hn hnone hrow'
    · obtain ⟨row, hexpenses, hrow⟩ := createExpense_refersWithin hnone hok
      rw [hexpenses, Finmap.lookup_insert] at hrow'
      cases hrow'
      exact hrow.mono hkeeps
    · obtain ⟨row, hexpenses, hrow⟩ := createAdjustment_refersWithin hwithin hnone hok
      rw [hexpenses, Finmap.lookup_insert] at hrow'
      cases hrow'
      exact hrow.mono hkeeps

end

/-! ## Reference data -/

theorem ReferenceDataType.rows_withRows (a : Administration) (rows : List ReferenceRow)
    (type type' : ReferenceDataType) :
    type'.rows (type.withRows a rows) = if type' = type then rows else type'.rows a := by
  cases type <;> cases type' <;> rfl

/-- The rows of one kind are replaced. -/
theorem KeepsRows.withRows {a : Administration} {type : ReferenceDataType}
    {rows : List ReferenceRow} (h : ∀ r ∈ type.rows a,
      ∃ r' ∈ rows, r'.id = r.id ∧ r'.organizationId = r.organizationId) :
    KeepsRows a (type.withRows a rows) := by
  intro type' r hr
  rw [ReferenceDataType.rows_withRows]
  split_ifs with htype
  · subst htype
    exact h r hr
  · exact ⟨r, hr, rfl, rfl⟩

/-- Rows are added. -/
theorem KeepsRows.append {a : Administration} (type : ReferenceDataType)
    (rows : List ReferenceRow) : KeepsRows a (type.withRows a (type.rows a ++ rows)) :=
  .withRows fun r hr => ⟨r, List.mem_append_left _ hr, rfl, rfl⟩

/-- One row is activated or deactivated. -/
theorem KeepsRows.setActive {a : Administration} (type : ReferenceDataType) (id : Id)
    (isActive : Bool) : KeepsRows a (type.withRows a ((type.rows a).map fun r =>
      if r.id = id then { r with isActive } else r)) := by
  refine .withRows fun r hr => ⟨_, List.mem_map_of_mem hr, ?_⟩
  split_ifs
  · exact ⟨rfl, rfl⟩
  · exact ⟨rfl, rfl⟩

section

open ReferenceStore

variable {d d' : ReferenceStore} {type : ReferenceDataType} {env : Env}

theorem enqueueEvents_solo (events : List DomainEvent) (d : ReferenceStore) :
    (enqueueEvents events).solo d = .ok ((), { d with
      store := { d.store with outbox := d.store.outbox ++ events } }) := rfl

theorem findRow_ok {id organizationId : Id} {a : Unit} :
    (findRow type id organizationId).solo d = .ok (a, d') ↔
      d.IsOwn type id organizationId ∧ d' = d := by
  simp only [findRow]
  rw [Tx.solo_select_bind, Tx.solo_require_ok, decide_eq_true_iff]

/-- **When a row is created**: the organization has none of its name. -/
theorem createReferenceData_ok {cmd : CreateReferenceDataCommand} {a : Id} :
    (createReferenceData type env cmd).solo d = .ok (a, d') ↔
      ¬ d.NameTaken type cmd.organizationId cmd.name ∧ (∀ r ∈ d.rows type, r.id ≠ env.uuid) ∧
        a = env.uuid ∧ d' =
          { names := Function.update d.names env.uuid cmd.name
            store := { d.store with
              administration := type.withRows d.store.administration
                (d.rows type ++ [⟨env.uuid, cmd.organizationId, true⟩])
              outbox := d.store.outbox ++
                [referenceDataCreated type.name env.uuid cmd.organizationId cmd.name] } } := by
  simp only [createReferenceData, insertRow, Tx.solo_select_bind, Tx.solo_bind_ok,
    Tx.solo_require_ok, decide_eq_false_iff_not, Tx.solo_exec_ok, except_bind_ok, ensure_ok,
    except_pure_ok, enqueueEvents_solo, Tx.pure_eq, Tx.solo_ret, Except.ok.injEq, Prod.mk.injEq]
  refine ⟨?_, ?_⟩
  · rintro ⟨_, _, ⟨hname, rfl⟩, _, _, ⟨_, ⟨_, hid, _, -, rfl⟩, rfl⟩, _, _, ⟨-, rfl⟩, rfl, rfl⟩
    exact ⟨hname, hid, rfl, rfl⟩
  · rintro ⟨hname, hid, rfl, rfl⟩
    exact ⟨(), _, ⟨hname, rfl⟩, (), _, ⟨_, ⟨(), hid, (), hname, rfl⟩, rfl⟩, (), _, ⟨trivial, rfl⟩,
      rfl, rfl⟩

/-- **When a row is renamed**: it is one of the organization, which has no other one of the
name. -/
theorem updateReferenceData_ok {cmd : UpdateReferenceDataCommand} {a : Unit} :
    (updateReferenceData type env cmd).solo d = .ok (a, d') ↔
      d.IsOwn type cmd.id cmd.organizationId ∧
        ¬ d.NameCollides type cmd.organizationId cmd.id cmd.name ∧ d' =
          { names := Function.update d.names cmd.id cmd.name
            store := { d.store with outbox := d.store.outbox ++
              [referenceDataUpdated type.name cmd.id cmd.organizationId cmd.name] } } := by
  simp only [updateReferenceData, renameRow, Tx.solo_bind_ok, findRow_ok, Tx.solo_select,
    Tx.solo_require_ok, Tx.solo_exec_ok, except_bind_ok, ensure_ok, except_pure_ok,
    enqueueEvents_solo, Except.ok.injEq, Prod.mk.injEq]
  refine ⟨?_, ?_⟩
  · rintro ⟨_, _, ⟨hown, rfl⟩, _, _, ⟨rfl, rfl⟩, _, _, ⟨hname, rfl⟩, _, _,
      ⟨_, ⟨_, -, rfl⟩, rfl⟩, -, rfl⟩
    exact ⟨hown, of_decide_eq_false hname, rfl⟩
  · rintro ⟨hown, hname, rfl⟩
    exact ⟨(), _, ⟨hown, rfl⟩, _, _, ⟨rfl, rfl⟩, (), _, ⟨decide_eq_false hname, rfl⟩, (), _,
      ⟨_, ⟨(), hname, rfl⟩, rfl⟩, trivial, rfl⟩

/-- **When a row is deactivated**: it is one of the organization. -/
theorem deactivateReferenceData_ok {cmd : DeactivateReferenceDataCommand} {a : Unit} :
    (deactivateReferenceData type env cmd).solo d = .ok (a, d') ↔
      d.IsOwn type cmd.id cmd.organizationId ∧ d' =
        { d with store := { d.store with
            administration := type.withRows d.store.administration ((d.rows type).map fun r =>
              if r.id = cmd.id then { r with isActive := false } else r)
            outbox := d.store.outbox ++
              [referenceDataDeactivated type.name cmd.id cmd.organizationId cmd.actorId] } } := by
  simp only [deactivateReferenceData, deactivateRow, Tx.solo_bind_ok, findRow_ok,
    Tx.solo_exec_ok, except_pure_ok, enqueueEvents_solo, Except.ok.injEq, Prod.mk.injEq]
  refine ⟨?_, ?_⟩
  · rintro ⟨_, _, ⟨hown, rfl⟩, _, _, ⟨_, rfl, rfl⟩, -, rfl⟩
    exact ⟨hown, rfl⟩
  · rintro ⟨hown, rfl⟩
    exact ⟨(), _, ⟨hown, rfl⟩, (), _, ⟨_, rfl, rfl⟩, trivial, rfl⟩

theorem ReferenceDataCommand.program_create (cmd : CreateReferenceDataCommand) :
    program env (.create type cmd) = (createReferenceData type env cmd).discard := by
  cases type <;> rfl

theorem ReferenceDataCommand.program_update (cmd : UpdateReferenceDataCommand) :
    program env (.update type cmd) = updateReferenceData type env cmd := by
  cases type <;> rfl

theorem ReferenceDataCommand.program_deactivate (cmd : DeactivateReferenceDataCommand) :
    program env (.deactivate type cmd) = deactivateReferenceData type env cmd := by
  cases type <;> rfl

/-- **The frame of the commands on reference data**: rows that stay where they are, and the
outbox. -/
theorem ReferenceDataCommand.frame {cmd : ReferenceDataCommand} {a : Unit}
    (h : (cmd.program env).solo d = .ok (a, d')) :
    ∃ administration outbox, d'.store = { d.store with administration, outbox } ∧
      KeepsRows d.store.administration administration := by
  cases cmd with
  | create type cmd =>
    rw [program_create] at h
    obtain ⟨_, h⟩ := Tx.solo_discard_ok.mp h
    obtain ⟨-, -, -, rfl⟩ := createReferenceData_ok.mp h
    exact ⟨_, _, rfl, .append _ _⟩
  | update type cmd =>
    rw [program_update] at h
    obtain ⟨-, -, rfl⟩ := updateReferenceData_ok.mp h
    exact ⟨d.store.administration, _, rfl, .refl _⟩
  | deactivate type cmd =>
    rw [program_deactivate] at h
    obtain ⟨-, rfl⟩ := deactivateReferenceData_ok.mp h
    exact ⟨_, _, rfl, .setActive _ _ _⟩

end

/-! ## Imports -/

section

variable {runtime : ImportRuntime} {job : ImportJob} {env : Env} {t t' : ImportTables}

/-- The vendor of a row: one of the organization that is active again, or a new one. -/
theorem upsertVendor_keepsRows (job : ImportJob) (t : ImportTables) (uuid : Id) (name : String) :
    ∃ administration, (upsertVendor job t uuid name).1.store = { t.store with administration } ∧
      KeepsRows t.store.administration administration := by
  unfold upsertVendor
  simp only
  split
  · next vendor _ => exact ⟨_, rfl, .setActive .vendor vendor.id true⟩
  · exact ⟨_, rfl, .append .vendor _⟩

/-- **A call of a run** leaves the store alone but for a vendor, or creates an expense by the
handler people use. -/
theorem store_of_perform {p p' : ImportPhase}
    (h : p.perform runtime job env t = .ok (t', p')) :
    (∃ administration, t'.store = { t.store with administration } ∧
      KeepsRows t.store.administration administration) ∨
    ∃ cmd a, (createExpense env cmd).solo t.store = .ok (a, t'.store) := by
  have same : t'.store = t.store → ∃ administration, t'.store = { t.store with administration } ∧
      KeepsRows t.store.administration administration :=
    fun hstore => ⟨t.store.administration, hstore, .refl _⟩
  cases ImportPhase.performed h with
  | @upsertedVendor i row counts record departmentId categoryId name =>
    exact .inl (upsertVendor_keepsRows job t env.uuid name)
  | @created i row counts hash cmd a store hsolo => exact .inr ⟨cmd, a, hsolo⟩
  | _ => exact .inl (same rfl)

/-- What a call leaves of the store. -/
theorem store_of_call {σ τ : ImportSystem} {w : ℕ} {outcome : CallOutcome}
    (h : ImportSystem.next runtime job σ (.call w env outcome) = some τ) :
    σ.store.Fresh env.uuid ∧ (τ.store = σ.store ∨ ∃ t p',
      (σ.phase w).perform runtime job env σ.toImportTables = .ok (t, p') ∧ τ.store = t.store) := by
  simp only [ImportSystem.next] at h
  split_ifs at h with hfresh
  refine ⟨hfresh, ?_⟩
  rcases hperform : (σ.phase w).perform runtime job env σ.toImportTables with e | ⟨t, p'⟩
  · rw [hperform] at h
    cases outcome <;> cases h <;> exact .inl rfl
  · rw [hperform] at h
    cases outcome with
    | returns | loses message =>
      cases h
      exact .inr ⟨t, p', rfl, rfl⟩
    | fails message =>
      cases h
      exact .inl rfl

end

/-! ## The platform -/

namespace Platform

variable {runtime : ImportRuntime} {jobs : ℕ → ImportJob} {σ σ' : Platform} {event : PlatformEvent}

/-- What every event keeps. -/
structure Sound (σ : Platform) : Prop where
  wellFormed : σ.store.WellFormed
  within : σ.store.RefersWithin

/-- A command of a context. -/
theorem Sound.command (h : σ.Sound) {request : Request} {store : Store}
    (hn : RatelPlatform.next σ.store request = some store)
    (hadminister : ∀ a, request.command = .administer a → KeepsRows σ.store.administration a)
    (hstore : σ'.store = store) : σ'.Sound := by
  have hkeeps := keepsReferences_next h.wellFormed hn hadminister
  exact ⟨hstore ▸ h.wellFormed.next hn, hstore ▸ h.within.next h.wellFormed hn hkeeps⟩

/-- Reference data that stays where it is. -/
theorem Sound.rows (h : σ.Sound) (administration : Administration) (outbox : List DomainEvent)
    (hkeeps : KeepsRows σ.store.administration administration)
    (hstore : σ'.store = { σ.store with administration, outbox }) : σ'.Sound := by
  refine ⟨hstore ▸ ⟨h.wellFormed.aligned, h.wellFormed.disjoint⟩, ?_⟩
  rw [hstore]
  exact fun id row hrow => (h.within id row hrow).mono (.of_rows hkeeps rfl rfl)

/-- **One event** keeps every expense within its organization. -/
theorem Sound.next (h : σ.Sound) (hn : next runtime jobs σ event = some σ') : σ'.Sound := by
  cases event with
  | referenceData env cmd =>
    simp only [Platform.next] at hn
    split_ifs at hn
    rcases hsolo : (cmd.program env).solo σ.toReferenceStore with e | ⟨a, d⟩
    · rw [hsolo] at hn
      obtain rfl := Option.some.inj hn
      exact h
    · rw [hsolo] at hn
      obtain rfl := Option.some.inj hn
      obtain ⟨_, _, hstore, hkeeps⟩ := ReferenceDataCommand.frame hsolo
      exact h.rows _ _ hkeeps hstore
  | command request =>
    obtain ⟨store, hnext, rfl⟩ := Option.map_eq_some_iff.mp hn
    refine h.command hnext (fun a ha => ?_) rfl
    obtain ⟨env, command⟩ := request
    cases command with
    | administer b =>
      cases ha
      intro type r hr
      exact ⟨r, by cases type <;> exact hr, rfl, rfl⟩
    | period | expense | payroll => cases ha
  | importCall j w env outcome =>
    obtain ⟨τ, hnext, rfl⟩ := Option.map_eq_some_iff.mp hn
    obtain ⟨hfresh, hstore | ⟨t, p', hperform, hstore⟩⟩ := store_of_call hnext
    · exact h.rows _ σ.store.outbox (.refl _) hstore
    · rcases store_of_perform hperform with ⟨administration, hsame, hkeeps⟩ | ⟨cmd, a, hsolo⟩
      · exact h.rows _ σ.store.outbox hkeeps (hstore.trans hsame)
      · exact h.command (ImportSystem.next_of_createExpense hfresh hsolo) (fun _ ha => nomatch ha) hstore
  | importCrash j w =>
    obtain rfl := Option.some.inj hn
    exact ⟨h.wellFormed, h.within⟩

/-- **Expenses keep to their organizations**: on every platform that is reached, whatever an
expense refers to belongs to the organization of the expense. -/
theorem references_within {runtime : ImportRuntime} {jobs : ℕ → ImportJob}
    {administration : Administration} {names : Id → String}
    {ok : Platform → PlatformEvent → Prop} {events : List PlatformEvent} {σ : Platform}
    (hr : Reaches (next runtime jobs) ok (initial administration names) events σ) (id : Id)
    (row : ExpenseRow) (hrow : σ.store.expenses.lookup id = some row) :
    row.RefersWithin σ.store := by
  have hsound : σ.Sound := by
    refine hr.invariant (P := Sound) ⟨Store.wellFormed_initial administration, ?_⟩
      fun _ _ _ h _ hn => h.next hn
    intro id row hrow
    cases hrow
  exact hsound.within id row hrow

end Platform

namespace Sample

/-- The organization 2 makes a department, 1 opens January and imports a row. -/
def importOnPlatform : List PlatformEvent :=
  [.referenceData ⟨noon, 60, 0⟩ (.create .department ⟨2, "Ops"⟩), .command openJanuary] ++
    List.replicate 7 (.importCall 0 0 ⟨noon, 101, 0⟩ .returns)

end Sample

namespace Platform

/-- The expense of an imported row. -/
theorem references_within_sample : ∃ σ row, Reaches (next Sample.importRuntime fun _ =>
    Sample.importJob) (fun _ _ => True) (initial Sample.administration Sample.names)
      Sample.importOnPlatform σ ∧
    σ.store.expenses.lookup 101 = some row ∧ row.RefersWithin σ.store := by
  have hrun : (runLabels (next Sample.importRuntime fun _ => Sample.importJob)
      (initial Sample.administration Sample.names) Sample.importOnPlatform).map
        (fun σ => (σ.store.expenses.lookup 101).isSome) = some true := by
    decide +kernel
  obtain ⟨σ, hσ, hcreated⟩ := Option.map_eq_some_iff.mp hrun
  obtain ⟨row, hrow⟩ := Option.isSome_iff_exists.mp hcreated
  have hr := reaches_of_runLabels hσ
  exact ⟨σ, row, hr, hrow, references_within hr 101 row hrow⟩

end Platform

end RatelPlatform
