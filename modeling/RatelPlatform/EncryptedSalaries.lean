import RatelPlatform.DomainMethods
import RatelPlatform.SortedLists

/-!
# Salary structures as they are stored

The line items of a version are one encrypted column. The store of the commands leaves the
encryption out; here is `PrismaSalaryStructureRepository` on the rows, which does on them what
the repository of the commands does on the versions they stand for (`save_refines`,
`saveNextVersion_refines`, `findActiveForEmployee_refines`).
-/

namespace RatelPlatform

/-! ## Rows -/

/-- A row of `salary_structures`. -/
structure SalaryStructureRow (Buffer : Type) where
  id : Id
  organizationId : Id
  employeeId : Id
  version : ℕ
  effectiveFrom : JsDate
  effectiveTo : Option JsDate
  encryptedLineItems : Buffer
  createdAt : JsDate

/-- `orderBy: { version: 'desc' }` -/
def HigherVersion {Buffer : Type} (r r' : SalaryStructureRow Buffer) : Prop :=
  r'.version ≤ r.version

instance {Buffer : Type} : DecidableRel (@HigherVersion Buffer) := fun r r' =>
  inferInstanceAs (Decidable (r'.version ≤ r.version))

instance {Buffer : Type} : Std.Total (@HigherVersion Buffer) :=
  ⟨fun r r' => le_total r'.version r.version⟩

instance {Buffer : Type} : IsTrans (SalaryStructureRow Buffer) HigherVersion :=
  ⟨fun _ _ _ h h' => le_trans h' h⟩

namespace PrismaSalaryStructureRepository

variable (encryption : EncryptionService (List SerializedSalaryLineItem)) (random : Id → ℕ)

/-- The row `save` creates. -/
def rowData (props : SalaryStructureProps) : SalaryStructureRow encryption.Buffer where
  id := props.id
  organizationId := props.organizationId
  employeeId := props.employeeId
  version := props.version
  effectiveFrom := props.effectiveFrom.day
  effectiveTo := props.effectiveTo.map .day
  encryptedLineItems :=
    encryption.encryptJson (random props.id) (serializeLineItems props.baseSalaryLineItems)
  createdAt := props.createdAt

/-- The version of a row, unless it cannot be decrypted. -/
def toDomain (row : SalaryStructureRow encryption.Buffer) : Option SalaryStructureProps := do
  let serialized ← encryption.decryptJson row.encryptedLineItems
  let lineItems ← deserializeLineItems serialized
  pure
    { id := row.id
      organizationId := row.organizationId
      employeeId := row.employeeId
      version := row.version
      effectiveFrom := row.effectiveFrom
      effectiveTo := row.effectiveTo
      baseSalaryLineItems := lineItems
      createdAt := row.createdAt }

/-- The open version of an employee with the highest number. -/
def activeRow {Buffer : Type} (rows : List (SalaryStructureRow Buffer)) (employeeId : Id) :
    Option (SalaryStructureRow Buffer) :=
  ((rows.filter fun r => r.employeeId = employeeId ∧ r.effectiveTo = none).insertionSort
    HigherVersion).head?

/-- `findActiveForEmployee`, unless the row cannot be decrypted -/
def findActiveForEmployee (rows : List (SalaryStructureRow encryption.Buffer)) (employeeId : Id) :
    Option (Option SalaryStructure) :=
  match activeRow rows employeeId with
  | none => some none
  | some row => (toDomain encryption row).map fun props => some (.reconstitute props)

/-- `save`: a version is inserted, and its employee has to be there. -/
def save (employees : Finset Id) (version : SalaryStructure)
    (rows : List (SalaryStructureRow encryption.Buffer)) :
    Except Failure (List (SalaryStructureRow encryption.Buffer)) := do
  let props := version.props
  ensure (∀ r ∈ rows, r.id ≠ props.id) (.database "salary_structures_pkey")
  ensure (¬ ∃ r ∈ rows, r.employeeId = props.employeeId ∧ r.version = props.version)
    (.database "salary_structures_employee_id_version_key")
  ensure (props.employeeId ∈ employees) (.database "salary_structures_employee_id_fkey")
  pure (rows ++ [rowData encryption random props])

/-- The rows after the `effectiveTo` of one is written. -/
def writeEffectiveTo {Buffer : Type} (props : SalaryStructureProps)
    (rows : List (SalaryStructureRow Buffer)) : List (SalaryStructureRow Buffer) :=
  rows.map fun r =>
    if r.id = props.id then { r with effectiveTo := props.effectiveTo.map .day } else r

/-- `saveNextVersion` -/
def saveNextVersion (employees : Finset Id) (previous next : SalaryStructure)
    (rows : List (SalaryStructureRow encryption.Buffer)) :
    Except Failure (List (SalaryStructureRow encryption.Buffer)) := do
  ensure (∃ r ∈ rows, r.id = previous.props.id) (.database "record to update not found")
  save encryption random employees next (writeEffectiveTo previous.props rows)

/-- The rows with an id, of which the table has at most one. -/
def rowsOf {Buffer : Type} (rows : List (SalaryStructureRow Buffer)) (id : Id) :
    List (SalaryStructureRow Buffer) :=
  rows.filter fun r => r.id = id

variable {encryption random}

/-- **A row gives back the version** it was made of, to the day. -/
theorem toDomain_rowData (props : SalaryStructureProps) :
    toDomain encryption (rowData encryption random props) =
      some (SalaryStructureRepository.toRow props) := by
  simp only [toDomain, rowData]
  rw [encryption.decrypt_encrypt, Option.bind_eq_bind, Option.bind_some,
    deserialize_serializeLineItems]
  rfl

/-- The row of a version that is read. -/
structure Reads (row : SalaryStructureRow encryption.Buffer) (props : SalaryStructureProps) :
    Prop where
  id : props.id = row.id
  employeeId : props.employeeId = row.employeeId
  version : props.version = row.version
  effectiveTo : props.effectiveTo = row.effectiveTo
  /-- the date of the end is not encrypted -/
  ended : ∀ effectiveTo, toDomain encryption { row with effectiveTo } =
    some { props with effectiveTo }

theorem reads_of_toDomain {row : SalaryStructureRow encryption.Buffer}
    {props : SalaryStructureProps} (h : toDomain encryption row = some props) :
    Reads row props := by
  simp only [toDomain, Option.bind_eq_bind, Option.bind_eq_some_iff, Option.pure_def,
    Option.some.injEq] at h
  obtain ⟨serialized, hdecrypt, lineItems, hitems, rfl⟩ := h
  refine ⟨rfl, rfl, rfl, rfl, fun effectiveTo => ?_⟩
  simp only [toDomain, hdecrypt, hitems, Option.bind_eq_bind, Option.bind_some]
  rfl

/-! ## The active version -/

section

variable {Buffer : Type} {rows : List (SalaryStructureRow Buffer)} {row : SalaryStructureRow Buffer}
  {employeeId : Id}

/-- The active version is an open one, and no open one has a higher number. -/
theorem mem_of_activeRow (h : activeRow rows employeeId = some row) :
    row ∈ rows ∧ row.employeeId = employeeId ∧ row.effectiveTo = none ∧
      ∀ r ∈ rows, r.employeeId = employeeId → r.effectiveTo = none → r.version ≤ row.version := by
  obtain ⟨hmem, hbehind⟩ := head_insertionSort h
  obtain ⟨hrow, hof⟩ := List.mem_filter.mp hmem
  obtain ⟨hof, hopen⟩ := of_decide_eq_true hof
  refine ⟨hrow, hof, hopen, fun r hr hrof hropen => ?_⟩
  rcases hbehind r (List.mem_filter.mpr ⟨hr, decide_eq_true ⟨hrof, hropen⟩⟩) with rfl | hle
  · exact le_rfl
  · exact hle

/-- An open version with a number above all other open ones is the active one. -/
theorem activeRow_eq_some (hrow : row ∈ rows) (hof : row.employeeId = employeeId)
    (hopen : row.effectiveTo = none) (hhighest : ∀ r ∈ rows, r.employeeId = employeeId →
      r.effectiveTo = none → r = row ∨ r.version < row.version) :
    activeRow rows employeeId = some row := by
  refine head_insertionSort_eq_some (List.mem_filter.mpr ⟨hrow, decide_eq_true ⟨hof, hopen⟩⟩) ?_
  intro r hr
  obtain ⟨hr, hopen⟩ := List.mem_filter.mp hr
  obtain ⟨hrof, hropen⟩ := of_decide_eq_true hopen
  exact (hhighest r hr hrof hropen).imp_right not_le.mpr

end

/-! ## Saving -/

section

variable {employees : Finset Id} {rows rows' : List (SalaryStructureRow encryption.Buffer)}
  {version previous next : SalaryStructure} {employeeId : Id}

theorem save_ok : save encryption random employees version rows = .ok rows' ↔
    (∀ r ∈ rows, r.id ≠ version.props.id) ∧
      (¬ ∃ r ∈ rows, r.employeeId = version.props.employeeId ∧
        r.version = version.props.version) ∧
      version.props.employeeId ∈ employees ∧
      rows' = rows ++ [rowData encryption random version.props] := by
  simp only [save, except_bind_ok, ensure_ok, except_pure_ok, exists_and_left, exists_const]

theorem rowsOf_append (rows rows₁ : List (SalaryStructureRow encryption.Buffer)) (id : Id) :
    rowsOf (rows ++ rows₁) id = rowsOf rows id ++ rowsOf rows₁ id := List.filter_append _ _

/-- **A version that is saved** has one row, and no other row is written. -/
theorem rowsOf_save (hsave : save encryption random employees version rows = .ok rows') :
    (rowsOf rows' version.props.id).map (toDomain encryption) =
        [some (SalaryStructureRepository.toRow version.props)] ∧
      ∀ id, id ≠ version.props.id → rowsOf rows' id = rowsOf rows id := by
  obtain ⟨hnew, -, -, rfl⟩ := save_ok.mp hsave
  have hnone : rowsOf rows version.props.id = [] := by
    rw [rowsOf, List.filter_eq_nil_iff]
    exact fun r hr => by simpa using hnew r hr
  refine ⟨?_, ?_⟩
  · rw [rowsOf_append, hnone, List.nil_append, rowsOf, List.filter_singleton]
    simp only [rowData, decide_true, cond_true, List.map_singleton]
    exact congrArg (fun p => [p]) (toDomain_rowData version.props)
  · intro id hid
    have hother : rowsOf [rowData encryption random version.props] id = [] := by
      rw [rowsOf, List.filter_eq_nil_iff]
      intro r hr
      rw [List.mem_singleton.mp hr]
      exact fun hsame => hid (of_decide_eq_true hsame).symm
    rw [rowsOf_append, hother, List.append_nil]

/-- **An open version is loaded**, if it has the highest number of the open ones. -/
theorem findActive_save (hsave : save encryption random employees version rows = .ok rows')
    (hopen : version.props.effectiveTo = none)
    (hhighest : ∀ r ∈ rows, r.employeeId = version.props.employeeId → r.effectiveTo = none →
      r.version < version.props.version) :
    findActiveForEmployee encryption rows' version.props.employeeId =
      some (some (.reconstitute (SalaryStructureRepository.toRow version.props))) := by
  obtain ⟨-, -, -, rfl⟩ := save_ok.mp hsave
  have hactive : activeRow (rows ++ [rowData encryption random version.props])
      version.props.employeeId = some (rowData encryption random version.props) := by
    refine activeRow_eq_some (List.mem_append_right _ (List.mem_singleton_self _)) rfl ?_ ?_
    · rw [rowData, hopen]
      rfl
    · intro r hr hof hropen
      rcases List.mem_append.mp hr with hr | hr
      · exact .inr (hhighest r hr hof hropen)
      · exact .inl (List.mem_singleton.mp hr)
  rw [findActiveForEmployee, hactive]
  simp only [toDomain_rowData]
  rfl

/-- **A version that was loaded is not saved again**: its row is there. -/
theorem save_loaded {row : SalaryStructureRow encryption.Buffer} (hrow : row ∈ rows)
    (hid : version.props.id = row.id) : save encryption random employees version rows =
      .error (.database "salary_structures_pkey") := by
  rw [save]
  simp only [ensure]
  rw [if_neg fun hnew => hnew row hrow hid.symm]
  rfl

theorem saveNextVersion_ok :
    saveNextVersion encryption random employees previous next rows = .ok rows' ↔
      (∃ r ∈ rows, r.id = previous.props.id) ∧
        save encryption random employees next (writeEffectiveTo previous.props rows) =
          .ok rows' := by
  simp only [saveNextVersion, except_bind_ok, ensure_ok, exists_and_left, exists_const]

/-- Only the end of the row with the id is written. -/
theorem rowsOf_writeEffectiveTo (props : SalaryStructureProps) (id : Id) :
    rowsOf (writeEffectiveTo props rows) id = (rowsOf rows id).map fun r =>
      if id = props.id then { r with effectiveTo := props.effectiveTo.map .day } else r := by
  have hid : ∀ r : SalaryStructureRow encryption.Buffer,
      (if r.id = props.id then { r with effectiveTo := props.effectiveTo.map JsDate.day }
        else r).id = r.id := by
    intro r
    split_ifs <;> rfl
  rw [rowsOf, writeEffectiveTo, List.filter_map, rowsOf]
  simp only [Function.comp_def, hid]
  refine List.map_congr_left fun r hr => ?_
  rw [of_decide_eq_true (List.mem_filter.mp hr).2]

/-- The table has one row with the id of one of its rows. -/
theorem rowsOf_eq_singleton (hkeys : (rows.map SalaryStructureRow.id).Nodup)
    {row : SalaryStructureRow encryption.Buffer} (hrow : row ∈ rows) :
    rowsOf rows row.id = [row] := by
  have hnodup : (rowsOf rows row.id).Nodup := (hkeys.of_map _).filter _
  have hmem : ∀ r, r ∈ rowsOf rows row.id ↔ r ∈ [row] := by
    intro r
    rw [rowsOf, List.mem_filter, decide_eq_true_eq, List.mem_singleton]
    refine ⟨?_, ?_⟩
    · rintro ⟨hr, hid⟩
      exact List.inj_on_of_nodup_map hkeys hr hrow hid
    · rintro rfl
      exact ⟨hrow, rfl⟩
  exact List.perm_singleton.mp ((List.perm_ext_iff_of_nodup hnodup (List.nodup_singleton _)).mpr hmem)

/-- **A version and its successor**: the row of the version has its end, the successor has a row
of its own and is loaded from now on, and no other row is written. -/
theorem rowsOf_saveNextVersion (hkeys : (rows.map SalaryStructureRow.id).Nodup)
    {loaded : SalaryStructure}
    (hloaded : findActiveForEmployee encryption rows employeeId = some (some loaded))
    {effectiveTo : Option JsDate}
    (hprevious : previous.props = { loaded.props with effectiveTo })
    (hemployee : next.props.employeeId = previous.props.employeeId)
    (hversion : next.props.version = previous.props.version + 1)
    (hopen : next.props.effectiveTo = none)
    (hsave : saveNextVersion encryption random employees previous next rows = .ok rows') :
    (rowsOf rows' previous.props.id).map (toDomain encryption) =
        [some { previous.props with effectiveTo := previous.props.effectiveTo.map .day }] ∧
      (rowsOf rows' next.props.id).map (toDomain encryption) =
        [some (SalaryStructureRepository.toRow next.props)] ∧
      (∀ id, id ≠ previous.props.id → id ≠ next.props.id → rowsOf rows' id = rowsOf rows id) ∧
      findActiveForEmployee encryption rows' employeeId =
        some (some (.reconstitute (SalaryStructureRepository.toRow next.props))) := by
  obtain ⟨-, hsave⟩ := saveNextVersion_ok.mp hsave
  rcases hactive : activeRow rows employeeId with _ | row
  · rw [findActiveForEmployee, hactive] at hloaded
    cases hloaded
  rw [findActiveForEmployee, hactive] at hloaded
  obtain ⟨props, hprops, heq⟩ := Option.map_eq_some_iff.mp hloaded
  obtain rfl := Option.some.inj heq
  have hread := reads_of_toDomain hprops
  obtain ⟨hrow, hof, -, hhighest⟩ := mem_of_activeRow hactive
  have hid : previous.props.id = row.id := by rw [hprevious]; exact hread.id
  have hnumber : previous.props.version = row.version := by rw [hprevious]; exact hread.version
  have hnextOf : next.props.employeeId = employeeId := by
    rw [hemployee, hprevious, ← hof]
    exact hread.employeeId
  -- the row of the version, after its end is written
  have hended : rowsOf (writeEffectiveTo previous.props rows) previous.props.id =
      [{ row with effectiveTo := previous.props.effectiveTo.map .day }] := by
    rw [rowsOf_writeEffectiveTo, hid, rowsOf_eq_singleton hkeys hrow, List.map_singleton,
      if_pos rfl]
  obtain ⟨hnext, hothers⟩ := rowsOf_save hsave
  have hne : previous.props.id ≠ next.props.id := by
    have hmem : ({ row with effectiveTo := previous.props.effectiveTo.map .day } :
        SalaryStructureRow encryption.Buffer) ∈
          rowsOf (writeEffectiveTo previous.props rows) previous.props.id := by
      rw [hended]
      exact List.mem_singleton_self _
    have hnew := (save_ok.mp hsave).1 _ (List.mem_filter.mp hmem).1
    rwa [hid]
  refine ⟨?_, hnext, fun id hprev hnew => ?_, ?_⟩
  · rw [hothers _ hne, hended, List.map_singleton, hread.ended, hprevious]
    rfl
  · rw [hothers id hnew, rowsOf_writeEffectiveTo]
    simp only [if_neg hprev, List.map_id']
  · rw [← hnextOf]
    refine findActive_save hsave hopen fun r hr hrof hropen => ?_
    obtain ⟨r₀, hr₀, rfl⟩ := List.mem_map.mp hr
    rw [hversion, hnumber, Nat.lt_succ_iff]
    rw [hnextOf] at hrof
    split_ifs at hrof hropen ⊢ with hsame
    · rw [List.inj_on_of_nodup_map hkeys hr₀ hrow (hsame.trans hid)]
    · exact hhighest r₀ hr₀ hrof hropen

end

/-! ## The versions the rows stand for -/

section

variable {rows rows' : List (SalaryStructureRow encryption.Buffer)} {d : PayrollStore}

/-- The rows stand for the versions of the store. -/
def Refines (rows : List (SalaryStructureRow encryption.Buffer))
    (versions : List SalaryStructureProps) : Prop :=
  List.Forall₂ (fun r s => toDomain encryption r = some s) rows versions

/-- **`findActiveForEmployee`** answers with what the store holds. -/
theorem findActiveForEmployee_refines (h : Refines rows d.salaryStructures) (employeeId : Id) :
    ∃ found, (SalaryStructureRepository.findActiveForEmployee employeeId).solo d =
        .ok (found, d) ∧ findActiveForEmployee encryption rows employeeId = some found := by
  refine ⟨(d.activeStructure employeeId).map .reconstitute, rfl, ?_⟩
  -- rows and versions are chosen and sorted by what is not encrypted
  have hchosen := List.rel_filter (p := fun r : SalaryStructureRow encryption.Buffer =>
    decide (r.employeeId = employeeId ∧ r.effectiveTo = none))
    (q := fun v : SalaryStructureProps => decide (v.employeeId = employeeId ∧ v.effectiveTo = none))
    (fun r v hrv => by
      simp only [decide_eq_true_eq, (reads_of_toDomain hrv).employeeId,
        (reads_of_toDomain hrv).effectiveTo]) h
  have hhead := forall₂_head (forall₂_insertionSort (r := HigherVersion)
    (s := fun v v' : SalaryStructureProps => v'.version ≤ v.version)
    (fun {_ _ _ _} hr hr' => by
      rw [HigherVersion, (reads_of_toDomain hr).version, (reads_of_toDomain hr').version]) hchosen)
  have hactive : Option.Rel (fun r v => toDomain encryption r = some v) (activeRow rows employeeId)
      (d.activeStructure employeeId) := hhead
  rw [findActiveForEmployee]
  rcases hrow : activeRow rows employeeId with _ | row <;>
    rcases hversion : d.activeStructure employeeId with _ | version <;>
    rw [hrow, hversion] at hactive <;> cases hactive
  · rfl
  · next hread =>
    simp only [hread]
    rfl

/-- **`save`** stores what the repository of the commands stores. -/
theorem save_refines (h : Refines rows d.salaryStructures) {version : SalaryStructure}
    (hsave : save encryption random d.employees.keys version rows = .ok rows') :
    ∃ versions, (SalaryStructureRepository.save version).solo d =
        .ok ((), d.withStructures versions) ∧ Refines rows' versions := by
  obtain ⟨hnew, hfree, hemployee, rfl⟩ := save_ok.mp hsave
  refine ⟨_, SalaryStructureRepository.save_ok.mpr ⟨?_, ?_, ?_, rfl⟩, ?_⟩
  · intro s hs
    obtain ⟨r, hr, hread⟩ := exists_of_forall₂ h hs
    rw [(reads_of_toDomain hread).id]
    exact hnew r hr
  · rintro ⟨s, hs, hof, hversion⟩
    obtain ⟨r, hr, hread⟩ := exists_of_forall₂ h hs
    have hread := reads_of_toDomain hread
    exact hfree ⟨r, hr, hread.employeeId.symm.trans hof, hread.version.symm.trans hversion⟩
  · exact Finmap.mem_keys.mp hemployee
  · exact List.rel_append h (.cons (toDomain_rowData version.props) .nil)

/-- **`saveNextVersion`** as well. -/
theorem saveNextVersion_refines (h : Refines rows d.salaryStructures)
    {previous next : SalaryStructure}
    (hsave : saveNextVersion encryption random d.employees.keys previous next rows = .ok rows') :
    ∃ versions, (SalaryStructureRepository.saveNextVersion previous next).solo d =
        .ok ((), d.withStructures versions) ∧ Refines rows' versions := by
  obtain ⟨⟨r, hr, hid⟩, hsave⟩ := saveNextVersion_ok.mp hsave
  have hended : Refines (writeEffectiveTo previous.props rows)
      (SalaryStructureRepository.writeEffectiveTo previous.props d.salaryStructures) := by
    refine List.forall₂_map_left_iff.mpr (List.forall₂_map_right_iff.mpr (h.imp ?_))
    intro r s hrs
    have hread := reads_of_toDomain hrs
    by_cases hsame : r.id = previous.props.id
    · rw [if_pos hsame, if_pos (hread.id.trans hsame)]
      exact hread.ended _
    · rw [if_neg hsame, if_neg fun h => hsame (hread.id.symm.trans h)]
      exact hrs
  obtain ⟨versions, hstore, hrefines⟩ := save_refines
    (d := d.withStructures (SalaryStructureRepository.writeEffectiveTo previous.props
      d.salaryStructures)) hended hsave
  obtain ⟨s, hs, hrow⟩ := exists_of_forall₂ (List.Forall₂.flip h) hr
  refine ⟨versions, ?_, hrefines⟩
  -- the row to be closed stands for a version, so the first statement of the store runs as well
  have hfound : ∃ s ∈ d.salaryStructures, s.id = previous.props.id :=
    ⟨s, hs, (reads_of_toDomain hrow).id.trans hid⟩
  rw [SalaryStructureRepository.saveNextVersion,
    Tx.solo_bind_of_ok (a := ()) (Tx.solo_exec_ok.mpr ⟨_, by rw [ensure, if_pos hfound]; rfl, rfl⟩)]
  exact hstore

end

end PrismaSalaryStructureRepository

end RatelPlatform
