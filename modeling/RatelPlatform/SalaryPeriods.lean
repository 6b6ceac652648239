import RatelPlatform.SalaryHistories
import RatelPlatform.Periods
import RatelPlatform.PayrollMonths

/-!
# When a salary is in effect

A version of a salary structure is in effect from its `effectiveFrom` up to its
`effectiveTo`. The date of a new version is the client's, and is compared with nothing: not
with the date of the version it closes, and not with the months of the payslips that were
computed from that version.

So the periods of an employee are in order and apart from one another exactly as long as no
version begins before the one it closes (`periodsSound_iff`). And a payslip is computed from
the version that is open, whatever its dates: it is the one in effect in the month of the
run as long as it has begun by then, and is not closed at an earlier date afterwards
(`paid_in_effect`).
-/

namespace RatelPlatform

/-! ## Periods -/

namespace SalaryStructureProps

/-- The period in which a version is in effect. -/
def period (s : SalaryStructureProps) : Period ℤ :=
  ⟨s.effectiveFrom.ms, s.effectiveTo.map JsDate.ms⟩

/-- The version is in effect at the date: from `effectiveFrom` up to `effectiveTo`. -/
def InEffect (s : SalaryStructureProps) (t : JsDate) : Prop :=
  s.effectiveFrom.ms ≤ t.ms ∧ ∀ e ∈ s.effectiveTo, t.ms < e.ms

instance (s : SalaryStructureProps) (t : JsDate) : Decidable (s.InEffect t) :=
  inferInstanceAs (Decidable (_ ∧ ∀ e ∈ s.effectiveTo, _))

theorem period_inEffect {s : SalaryStructureProps} {t : JsDate} :
    s.period.InEffect t.ms ↔ s.InEffect t := by
  simp [Period.InEffect, period, InEffect]

end SalaryStructureProps

/-- At most one version is in effect at any date, and none ends before it begins. -/
structure PeriodsSound (rows : List SalaryStructureProps) : Prop where
  atMostOne : ∀ t : JsDate, (rows.filter fun s => s.InEffect t).length ≤ 1
  ordered : ∀ s ∈ rows, ∀ e ∈ s.effectiveTo, s.effectiveFrom.ms ≤ e.ms

/-- When the versions begin. -/
def startsOf (rows : List SalaryStructureProps) : List ℤ := rows.map fun s => s.effectiveFrom.ms

namespace VersionHistory

variable {rows : List SalaryStructureProps} {s : SalaryStructureProps}

theorem consecutive (h : VersionHistory rows) :
    Consecutive (rows.map SalaryStructureProps.period) := by
  rw [Consecutive, List.isChain_map]
  refine h.chain.imp fun s t hstop => ?_
  simp [SalaryStructureProps.period, hstop]

/-- **Sound periods** are those of versions that begin one after another. -/
theorem sound_iff (h : VersionHistory rows) :
    PeriodsSound rows ↔ (startsOf rows).IsChain (· ≤ ·) := by
  have hlast : ∀ p ∈ (rows.map SalaryStructureProps.period).getLast?, p.stop = none := by
    intro p hp
    rw [List.getLast?_map] at hp
    obtain ⟨s, hs, rfl⟩ := Option.map_eq_some_iff.mp hp
    simp [SalaryStructureProps.period, h.last s hs]
  have hascending : StartsAscend (rows.map SalaryStructureProps.period) ↔
      (startsOf rows).IsChain (· ≤ ·) := by
    rw [StartsAscend, startsOf, List.isChain_map, List.isChain_map]
    rfl
  rw [← hascending]
  refine ⟨?_, ?_⟩
  · intro hsound
    refine (h.consecutive.ordered_iff hlast).mp fun p hp => ?_
    obtain ⟨s, hs, rfl⟩ := List.mem_map.mp hp
    simpa [Period.Ordered, SalaryStructureProps.period] using hsound.ordered s hs
  · intro hsorted
    refine ⟨fun t => ?_, fun s hs => ?_⟩
    · have hone := h.consecutive.atMostOne hsorted t.ms
      rw [List.filter_map, List.length_map] at hone
      have hfilter : (rows.filter fun s => s.InEffect t) =
          rows.filter ((fun p => decide (p.InEffect t.ms)) ∘ SalaryStructureProps.period) :=
        List.filter_congr fun s _ => by simp [SalaryStructureProps.period_inEffect]
      rw [hfilter]
      exact hone
    · have hordered := (h.consecutive.ordered_iff hlast).mpr hsorted _ (List.mem_map_of_mem hs)
      simpa [Period.Ordered, SalaryStructureProps.period] using hordered

/-- Only the last version is open. -/
theorem eq_snoc_of_open (h : VersionHistory rows) (hs : s ∈ rows) (hopen : s.effectiveTo = none) :
    ∃ init, rows = init ++ [s] := by
  obtain ⟨init, rest, rfl⟩ := List.append_of_mem hs
  cases rest with
  | nil => exact ⟨init, rfl⟩
  | cons t rest =>
    obtain ⟨-, hchain, -⟩ := List.isChain_append.mp h.chain
    cases hopen.symm.trans (List.isChain_cons_cons.mp hchain).1

end VersionHistory

namespace PayrollStore

variable {env : Env} {d d' : PayrollStore} {administration : Administration} {users : List Id}
  {rs : List Request}

/-! ## A version begins no earlier than the one before -/

/-- **The condition**: a new version is in effect no earlier than the version it closes. -/
def DatesAscend (d : PayrollStore) (r : Request) : Prop :=
  match r.command with
  | .salaryStructure (.createVersion cmd) => ∀ previous ∈ d.activeStructure cmd.employeeId,
      previous.organizationId = cmd.organizationId →
        previous.effectiveFrom.ms ≤ cmd.effectiveFrom.day.ms
  | _ => True

instance (d : PayrollStore) (r : Request) : Decidable (DatesAscend d r) :=
  match r with
  | ⟨_, .salaryStructure (.createVersion cmd)⟩ =>
    inferInstanceAs (Decidable (∀ previous ∈ d.activeStructure cmd.employeeId, _))
  | ⟨_, .salaryStructure (.create _)⟩ | ⟨_, .employee _⟩ | ⟨_, .other _⟩ => isTrue trivial

/-- The periods of every employee are sound. -/
def Sound (d : PayrollStore) : Prop := ∀ employeeId, PeriodsSound (d.structuresOf employeeId)

/-- Every version is one of an employee. -/
def Staffed (d : PayrollStore) : Prop := ∀ s ∈ d.salaryStructures, s.employeeId ∈ d.employees

/-- What every run keeps. -/
structure Kept (d : PayrollStore) : Prop where
  wellFormed : d.store.WellFormed
  versioned : WellVersioned d.salaryStructures
  staffed : d.Staffed

theorem kept_initial (administration : Administration) (users : List Id) :
    (initial administration users).Kept :=
  ⟨Store.wellFormed_initial _, .nil, fun _ hs => nomatch hs⟩

/-- No employee goes away. -/
theorem Staffed.employee (h : d.Staffed) {cmd : EmployeeCommand} {a : Unit}
    (hok : (cmd.program env).solo d = .ok (a, d')) : d'.Staffed := by
  obtain ⟨employees, events, rfl, hinsert⟩ := EmployeeCommand.frame hok
  intro s hs
  obtain ⟨row, hrow⟩ := Finmap.mem_iff.mp (h s hs)
  obtain ⟨row', hrow', -⟩ := hinsert.keeps hrow
  exact Finmap.mem_iff.mpr ⟨row', hrow'⟩

theorem Staffed.salaryStructure (h : d.Staffed) {cmd : SalaryStructureCommand} {a : Unit}
    (hok : (cmd.program env).solo d = .ok (a, d')) : d'.Staffed := by
  cases cmd with
  | create cmd =>
    obtain ⟨_, hok⟩ := Tx.solo_discard_ok.mp hok
    obtain ⟨-, -, -, hemployee, -, rfl⟩ := createSalaryStructure_ok.mp hok
    intro s hs
    rcases List.mem_append.mp hs with hs | hs
    · exact h s hs
    · obtain rfl := List.mem_singleton.mp hs
      exact hemployee
  | createVersion cmd =>
    obtain ⟨_, hok⟩ := Tx.solo_discard_ok.mp hok
    obtain ⟨previous, -, -, -, -, hemployee, -, rfl⟩ := createSalaryStructureVersion_ok.mp hok
    intro s hs
    rcases List.mem_append.mp hs with hs | hs
    · obtain ⟨s₀, hs₀, rfl | ⟨-, rfl⟩⟩ := SalaryStructureRepository.mem_writeEffectiveTo hs
      · exact h s hs₀
      · exact h s₀ hs₀
    · obtain rfl := List.mem_singleton.mp hs
      exact hemployee

/-- One request keeps it. -/
theorem Kept.next {r : Request} (h : d.Kept) (hn : next d r = some d') : d'.Kept := by
  obtain ⟨hfresh, rfl | hrun⟩ := next_cases hn
  · exact h
  refine ⟨wellFormed_of_run h.wellFormed hfresh.2.2 hrun,
    wellVersioned_of_run h.wellFormed hfresh.2.2 h.versioned hrun, ?_⟩
  obtain ⟨env, command⟩ := r
  cases command with
  | employee cmd => exact h.staffed.employee (run_employee_ok.mp hrun)
  | salaryStructure cmd => exact h.staffed.salaryStructure (run_salaryStructure_ok.mp hrun)
  | other command =>
    obtain ⟨hemployees, hstructures, -, -⟩ := otherStep_of_run h.wellFormed hfresh.2.2 hrun
    intro s hs
    rw [hemployees]
    exact h.staffed s (hstructures ▸ hs)

theorem kept_of_reaches {ok : PayrollStore → Request → Prop}
    (hr : Reaches PayrollStore.next ok (initial administration users) rs d) : d.Kept :=
  hr.invariant (kept_initial administration users) fun _ _ _ h _ hn => h.next hn

/-- The version in effect is the last one. -/
theorem Kept.structuresOf_of_active (h : d.Kept) {employeeId : Id} {s : SalaryStructureProps}
    (hactive : d.activeStructure employeeId = some s) :
    ∃ init, d.structuresOf employeeId = init ++ [s] := by
  obtain ⟨hmem, hof, hopen⟩ := mem_of_activeStructure hactive
  exact (h.versioned.histories employeeId).eq_snoc_of_open
    (List.mem_filter.mpr ⟨hmem, decide_eq_true hof⟩) hopen

/-- Closing a version does not move it. -/
theorem startsOf_writeEffectiveTo (props : SalaryStructureProps)
    (rows : List SalaryStructureProps) :
    startsOf (SalaryStructureRepository.writeEffectiveTo props rows) = startsOf rows := by
  simp only [startsOf, SalaryStructureRepository.writeEffectiveTo, List.map_map]
  refine List.map_congr_left fun s _ => ?_
  simp only [Function.comp_apply]
  split_ifs
  · rfl
  · rfl

/-- When the versions of an employee begin, once one of them is closed and one is added. -/
theorem startsOf_closed_snoc (props row : SalaryStructureProps)
    (rows : List SalaryStructureProps) (employeeId : Id) :
    startsOf ((SalaryStructureRepository.writeEffectiveTo props rows ++ [row]).filter
        fun s => s.employeeId = employeeId) =
      startsOf (rows.filter fun s => s.employeeId = employeeId) ++
        if row.employeeId = employeeId then [row.effectiveFrom.ms] else [] := by
  rw [WellVersioned.filter_snoc, SalaryStructureRepository.filter_writeEffectiveTo fun _ _ => rfl]
  have happend : ∀ rows rows' : List SalaryStructureProps,
      startsOf (rows ++ rows') = startsOf rows ++ startsOf rows' := fun _ _ => List.map_append
  rw [happend, startsOf_writeEffectiveTo]
  split_ifs
  · rfl
  · rfl

/-- The versions begin one after another, for every employee. -/
def Ascends (d : PayrollStore) : Prop :=
  ∀ employeeId, (startsOf (d.structuresOf employeeId)).IsChain (· ≤ ·)

/-- A first version has none before it. -/
theorem Kept.ascends_create (h : d.Kept) {cmd : CreateSalaryStructureCommand} {a : Id}
    (hok : (createSalaryStructure env cmd).solo d = .ok (a, d')) : d'.Ascends ↔ d.Ascends := by
  obtain ⟨-, -, hversion, -, -, rfl⟩ := createSalaryStructure_ok.mp hok
  refine forall_congr' fun employeeId => ?_
  simp only [structuresOf, salaryStructures_withEvents, salaryStructures_withStructures,
    WellVersioned.filter_snoc]
  split_ifs with hof
  · have hnil := (h.versioned.histories employeeId).eq_nil fun s hs heq => by
      obtain ⟨hs, hmine⟩ := List.mem_filter.mp hs
      exact hversion ⟨s, hs, (of_decide_eq_true hmine).trans hof.symm, heq⟩
    rw [hnil]
    exact iff_of_true (.singleton _) .nil
  · rw [List.append_nil]

/-- **A next version** begins after the one before it exactly when it should. -/
theorem Kept.ascends_createVersion (h : d.Kept) {cmd : CreateSalaryStructureVersionCommand}
    {a : Id} (hok : (createSalaryStructureVersion env cmd).solo d = .ok (a, d')) :
    d'.Ascends ↔ d.Ascends ∧ d.DatesAscend ⟨env, .salaryStructure (.createVersion cmd)⟩ := by
  obtain ⟨previous, hactive, horg, -, -, -, -, rfl⟩ := createSalaryStructureVersion_ok.mp hok
  have hemployee := (mem_of_activeStructure hactive).2.1
  have hcondition : d.DatesAscend ⟨env, .salaryStructure (.createVersion cmd)⟩ ↔
      previous.effectiveFrom.ms ≤ cmd.effectiveFrom.day.ms := by
    simp [DatesAscend, hactive, horg]
  obtain ⟨init, hinit⟩ := h.structuresOf_of_active hactive
  have hof : (nextVersion env previous cmd).employeeId = cmd.employeeId := hemployee
  have hsnoc : (startsOf (d.structuresOf cmd.employeeId) ++ [cmd.effectiveFrom.day.ms]).IsChain
      (· ≤ ·) ↔ (startsOf (d.structuresOf cmd.employeeId)).IsChain (· ≤ ·) ∧
        previous.effectiveFrom.ms ≤ cmd.effectiveFrom.day.ms := by
    rw [hinit, List.isChain_append]
    simp [startsOf]
  rw [hcondition]
  simp only [Ascends, structuresOf, salaryStructures_withEvents, salaryStructures_withStructures,
    closedRows, startsOf_closed_snoc, hof]
  refine ⟨?_, ?_⟩
  · intro hall
    have hown := hall cmd.employeeId
    rw [if_pos rfl] at hown
    exact ⟨fun employeeId => (hall employeeId).left_of_append, (hsnoc.mp hown).2⟩
  · rintro ⟨hall, hle⟩ employeeId
    split_ifs with heq
    · subst heq
      exact hsnoc.mpr ⟨hall _, hle⟩
    · rw [List.append_nil]
      exact hall employeeId

/-- A next version of a structure of the organization is made. -/
theorem Kept.run_createVersion (h : d.Kept) {cmd : CreateSalaryStructureVersionCommand}
    (hfresh : d.Fresh env.uuid) {previous : SalaryStructureProps}
    (hactive : d.activeStructure cmd.employeeId = some previous)
    (horg : previous.organizationId = cmd.organizationId) :
    ∃ d', d.run ⟨env, .salaryStructure (.createVersion cmd)⟩ = .ok d' := by
  obtain ⟨hmem, hemployee, hopen⟩ := mem_of_activeStructure hactive
  have hfree : ¬ SalaryStructureRepository.VersionTaken d previous.employeeId
      (previous.version + 1) := by
    rintro ⟨s, hs, hof, hversion⟩
    obtain ⟨init, hinit⟩ := h.structuresOf_of_active hactive
    have hhistory := h.versioned.histories cmd.employeeId
    change VersionHistory (d.structuresOf cmd.employeeId) at hhistory
    rw [hinit] at hhistory
    have hmine : s ∈ init ++ [previous] := by
      rw [← hinit]
      exact List.mem_filter.mpr ⟨hs, decide_eq_true (hof.trans hemployee)⟩
    have hle := (hhistory.mem_version_iff.mp ⟨s, hmine, rfl⟩).2
    rw [hversion, hhistory.version_eq_length, List.length_append, List.length_singleton] at hle
    omega
  exact ⟨_, run_salaryStructure_ok.mpr (Tx.solo_discard_ok.mpr ⟨env.uuid,
    createSalaryStructureVersion_ok.mpr ⟨previous, hactive, horg, hfresh.2.1, hfree,
      h.staffed _ hmem, rfl, rfl⟩⟩)⟩

/-- **One request** keeps the order exactly when it meets the condition. -/
theorem Kept.ascends_next (h : d.Kept) {r : Request} (hn : PayrollStore.next d r = some d') :
    d'.Ascends ↔ d.Ascends ∧ d.DatesAscend r := by
  have hfresh := (next_cases hn).1
  simp only [PayrollStore.next, if_pos hfresh] at hn
  obtain ⟨env, command⟩ := r
  rcases hrun : d.run ⟨env, command⟩ with e | d₁
  · -- a failing request keeps the store; a next version only fails where there is none
    rw [hrun] at hn
    obtain rfl := Option.some.inj hn
    refine (and_iff_left ?_).symm
    cases command with
    | employee cmd => trivial
    | other command => trivial
    | salaryStructure cmd =>
      cases cmd with
      | create cmd => trivial
      | createVersion cmd =>
        intro previous hactive horg
        obtain ⟨d₁, hok⟩ := h.run_createVersion hfresh hactive horg
        cases hrun.symm.trans hok
  · rw [hrun] at hn
    obtain rfl := Option.some.inj hn
    cases command with
    | employee cmd =>
      obtain ⟨_, _, rfl, -⟩ := EmployeeCommand.frame (run_employee_ok.mp hrun)
      exact (and_iff_left trivial).symm
    | other command =>
      have hstructures := (otherStep_of_run h.wellFormed hfresh.2.2 hrun).salaryStructures
      simp only [Ascends, structuresOf, hstructures]
      exact (and_iff_left trivial).symm
    | salaryStructure cmd =>
      have hok := run_salaryStructure_ok.mp hrun
      cases cmd with
      | create cmd =>
        obtain ⟨_, hok⟩ := Tx.solo_discard_ok.mp hok
        exact (h.ascends_create hok).trans (and_iff_left trivial).symm
      | createVersion cmd =>
        obtain ⟨_, hok⟩ := Tx.solo_discard_ok.mp hok
        exact h.ascends_createVersion hok

theorem Kept.sound_iff (h : d.Kept) : d.Sound ↔ d.Ascends :=
  forall_congr' fun employeeId => (h.versioned.histories employeeId).sound_iff

/-- **When periods are sound**: in the store a run reaches, at most one version of each
employee is in effect at any date and none ends before it begins, exactly when every new
version was in effect no earlier than the one it closed. -/
theorem periodsSound_iff (hr : Reaches next (fun _ _ => True) (initial administration users) rs d) :
    (∀ employeeId, PeriodsSound (d.structuresOf employeeId)) ↔
      Reaches next DatesAscend (initial administration users) rs d := by
  have hascends : d.Ascends ↔ Reaches next DatesAscend (initial administration users) rs d := by
    refine hr.iff_allowed (P := Ascends) (fun _ => .nil) ?_
    intro rs d r d' hr hn
    exact (kept_of_reaches hr).ascends_next hn
  exact (kept_of_reaches hr).sound_iff.trans hascends

/-! ## The salary a payslip is computed from -/

/-- Every payslip is computed from a version that is in effect in the month of its run. -/
def PaidInEffect (d : PayrollStore) : Prop :=
  ∀ id row, d.store.payrollRuns.lookup id = some row → ∀ p ∈ row.payslips,
    ∃ s ∈ d.salaryStructures, s.toSnapshot = p.salaryStructureSnapshot ∧
      s.InEffect row.columns.runMonth

/-- The payslip is added to the run. -/
def Added (d : PayrollStore) (cmd : AddPayslipCommand) (row : PayrollRunRow)
    (payslip : PayslipProps) : Prop :=
  row.columns.organizationId = cmd.organizationId ∧
    d.store.PeriodIsOpen cmd.organizationId row.columns.periodId ∧ row.columns.status = .draft ∧
    payslip.employeeId ∉ row.payslips.map PayslipProps.employeeId ∧
    PayrollRunRepository.Insertable payslip

instance (d : PayrollStore) (cmd : AddPayslipCommand) (row : PayrollRunRow)
    (payslip : PayslipProps) : Decidable (d.Added cmd row payslip) :=
  inferInstanceAs (Decidable (_ ∧ _))

/-- The payslips computed from a version are of months before the date. -/
def PaidBefore (d : PayrollStore) (s : SalaryStructureProps) (date : JsDate) : Prop :=
  ∀ id ∈ d.store.payrollRuns.keys, ∀ row ∈ d.store.payrollRuns.lookup id, ∀ p ∈ row.payslips,
    p.salaryStructureSnapshot.salaryStructureId = s.id → row.columns.runMonth.ms < date.ms

instance (d : PayrollStore) (s : SalaryStructureProps) (date : JsDate) :
    Decidable (d.PaidBefore s date) :=
  inferInstanceAs (Decidable (∀ id ∈ d.store.payrollRuns.keys, _))

/-- **The condition**: a payslip is added once the open version has begun by the month of the
run, and a version is closed after the months of the payslips computed from it. -/
def PaysInEffect (d : PayrollStore) (r : Request) : Prop :=
  match r.command with
  | .other (.payroll (.addPayslip cmd)) =>
    ∀ row ∈ d.store.payrollRuns.lookup cmd.payrollRunId, ∀ s ∈ d.activeStructure cmd.employeeId,
      ∀ payslip ∈ (payslipFrom r.env cmd s).toOption, d.Added cmd row payslip →
        s.effectiveFrom.ms ≤ row.columns.runMonth.ms
  | .salaryStructure (.createVersion cmd) => ∀ previous ∈ d.activeStructure cmd.employeeId,
      previous.organizationId = cmd.organizationId → d.PaidBefore previous cmd.effectiveFrom.day
  | _ => True

instance (d : PayrollStore) (r : Request) : Decidable (PaysInEffect d r) :=
  match r with
  | ⟨_, .salaryStructure (.createVersion cmd)⟩ =>
    inferInstanceAs (Decidable (∀ previous ∈ d.activeStructure cmd.employeeId, _))
  | ⟨_, .other (.payroll (.addPayslip cmd))⟩ =>
    inferInstanceAs (Decidable (∀ row ∈ d.store.payrollRuns.lookup cmd.payrollRunId, _))
  | ⟨_, .salaryStructure (.create _)⟩ | ⟨_, .employee _⟩ => isTrue trivial
  | ⟨_, .other (.administer _)⟩ | ⟨_, .other (.period _)⟩ | ⟨_, .other (.expense _)⟩ =>
    isTrue trivial
  | ⟨_, .other (.payroll (.create _))⟩ | ⟨_, .other (.payroll (.submit _))⟩
  | ⟨_, .other (.payroll (.approve _))⟩ | ⟨_, .other (.payroll (.reject _))⟩
  | ⟨_, .other (.payroll (.cancel _))⟩ | ⟨_, .other (.payroll (.process _))⟩ => isTrue trivial

/-- The payslips stay as they are, and every version in effect stays so. -/
theorem PaidInEffect.mono (h : d.PaidInEffect)
    (hruns : d'.store.payrollRuns = d.store.payrollRuns)
    (hstructures : ∀ id row, d.store.payrollRuns.lookup id = some row → ∀ p ∈ row.payslips,
      ∀ s ∈ d.salaryStructures, s.toSnapshot = p.salaryStructureSnapshot →
        s.InEffect row.columns.runMonth → ∃ s' ∈ d'.salaryStructures, s'.toSnapshot = s.toSnapshot ∧
          s'.InEffect row.columns.runMonth) : d'.PaidInEffect := by
  intro id row hrow p hp
  rw [hruns] at hrow
  obtain ⟨s, hs, hsnapshot, heffect⟩ := h id row hrow p hp
  obtain ⟨s', hs', hsnapshot', heffect'⟩ := hstructures id row hrow p hp s hs hsnapshot heffect
  exact ⟨s', hs', hsnapshot'.trans hsnapshot, heffect'⟩

/-- **A next version** closes the one before it. -/
theorem PaidInEffect.createVersion (h : d.PaidInEffect)
    {cmd : CreateSalaryStructureVersionCommand} {a : Id}
    (hcondition : d.PaysInEffect ⟨env, .salaryStructure (.createVersion cmd)⟩)
    (hok : (createSalaryStructureVersion env cmd).solo d = .ok (a, d')) : d'.PaidInEffect := by
  obtain ⟨previous, hactive, horg, -, -, -, -, rfl⟩ := createSalaryStructureVersion_ok.mp hok
  have hbefore := hcondition previous hactive horg
  refine h.mono rfl fun id row hrow p hp s hs hsnapshot heffect => ?_
  have hmem : _ ∈ closedRows d previous cmd.effectiveFrom := List.mem_map_of_mem hs
  refine ⟨_, List.mem_append_left _ hmem, ?_⟩
  by_cases hid : s.id = previous.id
  · -- the version that is closed
    rw [if_pos hid]
    refine ⟨rfl, heffect.1, ?_⟩
    rintro _ ⟨⟩
    refine hbefore id ((Table.mem_keys_iff _ id).mpr ⟨row, hrow⟩) row hrow p hp ?_
    rw [← hsnapshot]
    exact hid
  · rw [if_neg hid]
    exact ⟨rfl, heffect⟩

/-- **A payslip** is computed from the open version. -/
theorem PaidInEffect.addPayslip (h : d.PaidInEffect) {cmd : AddPayslipCommand} {a : Id}
    {store : Store}
    (hcondition : d.PaysInEffect ⟨env, .other (.payroll (.addPayslip cmd))⟩)
    (hok : (RatelPlatform.addPayslip env cmd).solo d.store = .ok (a, store)) :
    ({ d with store } : PayrollStore).PaidInEffect := by
  obtain ⟨row, s, payslip, hrow, horg, hopen, hactive, hgen, hdraft, hnew, hinsertable, -, rfl⟩ :=
    addPayslip_ok_iff.mp hok
  obtain ⟨hmem, -, hclosed⟩ := mem_of_activeStructure (d := d) hactive
  have hbegun := hcondition row hrow s hactive payslip (by rw [hgen]; rfl)
    ⟨horg, hopen, hdraft, hnew, hinsertable⟩
  intro id row' hrow' p hp
  simp only [Table.lookup_insert_ite] at hrow'
  split_ifs at hrow' with hid
  · cases hrow'
    rcases List.mem_append.mp hp with hp | hp
    · exact h cmd.payrollRunId row hrow p hp
    · obtain rfl := List.mem_singleton.mp hp
      refine ⟨s, hmem, (Payslip.generate_snapshot hgen).symm, hbegun, ?_⟩
      rw [hclosed]
      exact fun _ he => nomatch he
  · exact h id row' hrow' p hp

/-- The other payroll commands. -/
theorem PaidInEffect.payroll (h : d.PaidInEffect) (hkept : d.Kept) {cmd : PayrollCommand}
    (hfresh : d.store.Fresh env.uuid) (hadd : ∀ add, cmd ≠ .addPayslip add) {a : Unit}
    {store : Store} (hok : (cmd.program env).solo d.store = .ok (a, store)) :
    ({ d with store } : PayrollStore).PaidInEffect := by
  obtain ⟨hadministration, -, -⟩ := PayrollCommand.frame hkept.wellFormed.aligned
    (fun _ => Finmap.lookup_eq_none.mpr hfresh.2.2.2) hok
  obtain ⟨row, hruns, -, -, hpayslips⟩ :=
    PayrollCommand.writes hkept.wellFormed.aligned hfresh hok
  have hstructures : ({ d with store } : PayrollStore).salaryStructures = d.salaryStructures :=
    congrArg Administration.salaryStructures hadministration
  intro id row' hrow' p hp
  rw [hstructures]
  simp only [hruns, Table.lookup_insert_ite] at hrow'
  split_ifs at hrow' with hid
  · cases hrow'
    rcases hpayslips p hp with ⟨old, hold, hp⟩ | ⟨add, _, rfl, -⟩
    · -- the run was there, and keeps its month
      have hcreate : cmd.isCreate = false := by
        cases cmd with
        | create cmd => cases (Finmap.lookup_eq_none.mpr hfresh.2.2.2).symm.trans hold
        | addPayslip | submit | approve | reject | cancel | process => rfl
      have hrun : store.HasRun row.columns.organizationId (cmd.subject env)
          row.columns.runMonth := ⟨row, by rw [hruns, Finmap.lookup_insert], rfl, rfl⟩
      obtain ⟨old', hold', -, hmonth⟩ :=
        (PayrollCommand.keepsDates hcreate hkept.wellFormed.aligned hok).mp hrun
      obtain rfl := Option.some.inj (hold.symm.trans hold')
      rw [← hmonth]
      exact h _ old hold p hp
    · exact absurd rfl (hadd add)
  · exact h id row' hrow' p hp

/-- **One request** that meets the condition keeps it. -/
theorem PaidInEffect.next (h : d.PaidInEffect) (hkept : d.Kept) {r : Request}
    (hcondition : d.PaysInEffect r) (hn : PayrollStore.next d r = some d') : d'.PaidInEffect := by
  obtain ⟨hfresh, rfl | hrun⟩ := next_cases hn
  · exact h
  have same : d'.salaryStructures = d.salaryStructures →
      d'.store.payrollRuns = d.store.payrollRuns → d'.PaidInEffect := by
    intro hstructures hruns
    exact h.mono hruns fun _ _ _ _ _ s hs _ heffect => ⟨s, hstructures ▸ hs, rfl, heffect⟩
  obtain ⟨env, command⟩ := r
  cases command with
  | employee cmd =>
    obtain ⟨_, _, rfl, -⟩ := EmployeeCommand.frame (run_employee_ok.mp hrun)
    exact same rfl rfl
  | salaryStructure cmd =>
    have hok := run_salaryStructure_ok.mp hrun
    cases cmd with
    | create cmd =>
      obtain ⟨_, hok⟩ := Tx.solo_discard_ok.mp hok
      obtain ⟨-, -, -, -, -, rfl⟩ := createSalaryStructure_ok.mp hok
      exact h.mono rfl fun _ _ _ _ _ s hs _ heffect =>
        ⟨s, List.mem_append_left _ hs, rfl, heffect⟩
    | createVersion cmd =>
      obtain ⟨_, hok⟩ := Tx.solo_discard_ok.mp hok
      exact h.createVersion hcondition hok
  | other command =>
    obtain ⟨-, hstructures, -, -⟩ := otherStep_of_run hkept.wellFormed hfresh.2.2 hrun
    obtain ⟨store, hsolo, rfl⟩ := run_other_ok.mp hrun
    cases command with
    | administer administration =>
      obtain ⟨_, hp, rfl⟩ := Tx.solo_exec_ok.mp hsolo
      cases hp
      exact same hstructures rfl
    | period cmd =>
      obtain ⟨_, _, rfl⟩ := PeriodCommand.frame hsolo
      exact same hstructures rfl
    | expense cmd =>
      obtain ⟨-, -, hruns, -⟩ := ExpenseCommand.frame hkept.wellFormed.aligned hfresh.2.2 hsolo
      exact same hstructures hruns
    | payroll cmd =>
      by_cases hadd : ∃ add, cmd = .addPayslip add
      · obtain ⟨add, rfl⟩ := hadd
        obtain ⟨_, hok⟩ := Tx.solo_discard_ok.mp hsolo
        exact h.addPayslip hcondition hok
      · exact h.payroll hkept hfresh.2.2 (not_exists.mp hadd) hsolo

/-- **Paid from the salary in effect**: in every run whose payslips are added once the open
version has begun, and whose versions are closed after the months they paid. -/
theorem paid_in_effect
    (hr : Reaches next PaysInEffect (initial administration users) rs d) : d.PaidInEffect := by
  refine hr.invariant_along (P := fun _ d => d.PaidInEffect) ?_ ?_
  · intro id row hrow
    cases hrow
  · intro rs d r d' hr h hcondition hn
    exact h.next (kept_of_reaches hr) hcondition hn

/-- A version is known by its snapshot. -/
theorem Kept.eq_of_snapshot_id (h : d.Kept) {s s' : SalaryStructureProps}
    (hs : s ∈ d.salaryStructures) (hs' : s' ∈ d.salaryStructures) (hid : s'.id = s.id) : s' = s :=
  List.inj_on_of_nodup_map h.versioned.ids hs' hs hid

/-- **Why the condition**: a request that does not meet it leaves a payslip that is not
computed from the salary in effect. -/
theorem unpaid_of_next (hr : Reaches next (fun _ _ => True) (initial administration users) rs d)
    {r : Request} (hn : next d r = some d') (hnot : ¬ d.PaysInEffect r) : ¬ d'.PaidInEffect := by
  have hkept := kept_of_reaches hr
  have hkept' := hkept.next hn
  have hfresh := (next_cases hn).1
  simp only [PayrollStore.next, if_pos hfresh] at hn
  intro hpaid
  apply hnot
  obtain ⟨env, command⟩ := r
  cases command with
  | employee cmd => trivial
  | salaryStructure cmd =>
    cases cmd with
    | create cmd => trivial
    | createVersion cmd =>
      intro previous hactive horg id hid row hrow p hp hsnapshot
      obtain ⟨d₁, hrun⟩ := hkept.run_createVersion hfresh hactive horg
      rw [hrun] at hn
      obtain rfl := Option.some.inj hn
      obtain ⟨_, hok⟩ := Tx.solo_discard_ok.mp (run_salaryStructure_ok.mp hrun)
      obtain ⟨previous', hactive', -, -, -, -, -, rfl⟩ := createSalaryStructureVersion_ok.mp hok
      obtain rfl := Option.some.inj (hactive.symm.trans hactive')
      obtain ⟨s, hs, hsame, heffect⟩ := hpaid id row hrow p hp
      have hclosed : { previous with effectiveTo := some cmd.effectiveFrom.day } ∈
          closedRows d previous cmd.effectiveFrom := by
        refine List.mem_map.mpr ⟨previous, (mem_of_activeStructure hactive).1, ?_⟩
        rw [if_pos rfl]
        rfl
      have heq := hkept'.eq_of_snapshot_id (List.mem_append_left _ hclosed) hs
        ((congrArg SalaryStructureSnapshot.salaryStructureId hsame).trans hsnapshot)
      rw [heq] at heffect
      exact heffect.2 _ rfl
  | other command =>
    cases command with
    | administer | period | expense => trivial
    | payroll cmd =>
      cases cmd with
      | create | submit | approve | reject | cancel | process => trivial
      | addPayslip cmd =>
        intro row hrow s hactive payslip hgen hadded
        obtain ⟨horg, hopen, hdraft, hnew, hinsertable⟩ := hadded
        rcases hok : payslipFrom env cmd s with e | payslip'
        · rw [hok] at hgen
          cases hgen
        rw [hok] at hgen
        cases hgen
        have hrun : d.run ⟨env, .other (.payroll (.addPayslip cmd))⟩ = .ok _ :=
          run_other_ok.mpr ⟨_, Tx.solo_discard_ok.mpr ⟨_, addPayslip_ok_iff.mpr
            ⟨row, s, payslip, hrow, horg, hopen, hactive, hok, hdraft, hnew, hinsertable, rfl,
              rfl⟩⟩, rfl⟩
        rw [hrun] at hn
        obtain rfl := Option.some.inj hn
        obtain ⟨s', hs', hsame, heffect⟩ := hpaid cmd.payrollRunId _ (Finmap.lookup_insert _)
          payslip (List.mem_append_right _ (List.mem_singleton_self _))
        have hid := congrArg SalaryStructureSnapshot.salaryStructureId
          (hsame.trans (Payslip.generate_snapshot hok))
        have heq := hkept'.eq_of_snapshot_id (mem_of_activeStructure (d := d) hactive).1 hs' hid
        rw [heq] at heffect
        exact heffect.1

end PayrollStore

namespace Sample

/-- The first of February. -/
def february : JsDate := ⟨2678400000, february_valid⟩

/-- The first of March. -/
def march : JsDate := ⟨5097600000, by decide⟩

/-- The organization 1 makes a first version for 40. -/
def structureFrom (uuid : Id) (date : JsDate) : PayrollStore.Request :=
  payrollRequest uuid (.salaryStructure (.create
    ⟨1, 40, date, [⟨.allowance, "Basic", ⟨500000, .NGN⟩⟩]⟩))

/-- The organization 1 makes the next version for 40. -/
def versionFrom (uuid : Id) (date : JsDate) : PayrollStore.Request :=
  payrollRequest uuid (.salaryStructure (.createVersion
    ⟨1, 40, date, [⟨.allowance, "Basic", ⟨600000, .NGN⟩⟩]⟩))

end Sample

namespace PayrollStore

/-- A version from January, and one from March. -/
theorem periodsSound_iff_sample : ∃ d, Reaches next (fun _ _ => True)
    (initial Sample.administration [])
    [Sample.hire, Sample.structureFrom 41 Sample.noon, Sample.versionFrom 42 Sample.march] d ∧
      (d.structuresOf 40).length = 2 ∧ ∀ employeeId, PeriodsSound (d.structuresOf employeeId) := by
  have hrun : (runLabels (fun d r => if decide (DatesAscend d r) = true then next d r else none)
      (initial Sample.administration [])
      [Sample.hire, Sample.structureFrom 41 Sample.noon,
        Sample.versionFrom 42 Sample.march]).map (fun d => (d.structuresOf 40).length) = some 2 := by
    decide +kernel
  obtain ⟨d, hd, htwo⟩ := Option.map_eq_some_iff.mp hrun
  have hr := reaches_of_checked_inv (I := fun _ => True) trivial (fun _ _ _ _ _ _ => trivial)
    (fun _ _ _ => of_decide_eq_true) hd
  have hany : Reaches next (fun _ _ => True) _ _ d := hr.mono fun _ _ _ => trivial
  exact ⟨d, hany, htwo, (periodsSound_iff hany).mpr hr⟩

/-- **Unsound periods**: versions from January, from March and from February, made in this
order. In the middle of February two are in effect, and one ends before it begins. -/
theorem periods_unsound :
    (¬ ∀ (administration : Administration) (users : List Id) (rs : List Request) (d : PayrollStore),
      Reaches next (fun _ _ => True) (initial administration users) rs d →
        ∀ (employeeId : Id) (t : JsDate),
          ((d.structuresOf employeeId).filter fun s => s.InEffect t).length ≤ 1) ∧
    ¬ ∀ (administration : Administration) (users : List Id) (rs : List Request) (d : PayrollStore),
      Reaches next (fun _ _ => True) (initial administration users) rs d →
        ∀ (employeeId : Id), ∀ s ∈ d.structuresOf employeeId, ∀ e ∈ s.effectiveTo,
          s.effectiveFrom.ms ≤ e.ms := by
  have hrun : (runLabels next (initial Sample.administration [])
      [Sample.hire, Sample.structureFrom 41 Sample.noon, Sample.versionFrom 42 Sample.march,
        Sample.versionFrom 43 Sample.february]).map (fun d =>
          (((d.structuresOf 40).filter fun s => s.InEffect Sample.february).length,
            (d.structuresOf 40).all fun s => decide (∀ e ∈ s.effectiveTo,
              s.effectiveFrom.ms ≤ e.ms))) = some (2, false) := by
    decide +kernel
  obtain ⟨d, hd, hfacts⟩ := Option.map_eq_some_iff.mp hrun
  obtain ⟨htwo, hends⟩ := Prod.mk.inj hfacts
  have hr := reaches_of_runLabels hd
  refine ⟨?_, ?_⟩
  · intro hall
    have hone := hall _ _ _ d hr 40 Sample.february
    omega
  · intro hall
    have hordered := hall _ _ _ d hr 40
    rw [List.all_eq_true.mpr fun s hs => decide_eq_true (hordered s hs)] at hends
    cases hends

/-- January is paid from a version in effect from January on. -/
theorem paid_in_effect_sample : ∃ d, Reaches next PaysInEffect (initial Sample.administration [])
    (Sample.hire :: Sample.structureFrom 41 Sample.noon :: Sample.paysJanuary 1 ++
      [Sample.versionFrom 42 Sample.february]) d ∧
    ((d.store.payrollRuns.lookup 201).any fun row => row.payslips ≠ []) = true ∧
    d.PaidInEffect := by
  have hrun : (runLabels (fun d r => if decide (PaysInEffect d r) = true then next d r else none)
      (initial Sample.administration [])
      (Sample.hire :: Sample.structureFrom 41 Sample.noon :: Sample.paysJanuary 1 ++
        [Sample.versionFrom 42 Sample.february])).map
          (fun d => (d.store.payrollRuns.lookup 201).any fun row => row.payslips ≠ []) =
            some true := by
    decide +kernel
  obtain ⟨d, hd, hpaid⟩ := Option.map_eq_some_iff.mp hrun
  have hr := reaches_of_checked_inv (I := fun _ => True) trivial (fun _ _ _ _ _ _ => trivial)
    (fun _ _ _ => of_decide_eq_true) hd
  exact ⟨d, hr, hpaid, paid_in_effect hr⟩

/-- **January is paid** from a version in effect from February on. -/
theorem paid_before_effect : ¬ ∀ (administration : Administration) (users : List Id)
    (rs : List Request) (d : PayrollStore),
    Reaches next (fun _ _ => True) (initial administration users) rs d → d.PaidInEffect := by
  intro hall
  have hrun : (runLabels next (initial Sample.administration [])
      (Sample.hire :: Sample.structureFrom 41 Sample.february :: Sample.paysJanuary 1)).map
        (fun d => (d.store.payrollRuns.lookup 201).any fun row => row.payslips.any fun _ =>
          d.salaryStructures.all fun s => ¬ s.InEffect row.columns.runMonth) = some true := by
    decide +kernel
  obtain ⟨d, hd, hany⟩ := Option.map_eq_some_iff.mp hrun
  obtain ⟨row, hrow, hany⟩ := (Option.any_eq_true _ _).mp hany
  obtain ⟨p, hp, hnone⟩ := List.any_eq_true.mp hany
  obtain ⟨s, hs, -, heffect⟩ := hall _ _ _ d (reaches_of_runLabels hd) 201 row hrow p hp
  exact of_decide_eq_true (List.all_eq_true.mp hnone s hs) heffect

end PayrollStore

end RatelPlatform
