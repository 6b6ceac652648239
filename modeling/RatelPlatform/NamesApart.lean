import RatelPlatform.OwnReferences
import RatelPlatform.UnambiguousLookups

/-!
# Names that an import can tell apart

The mapper of an import finds the department and the category of a row by their names,
whatever their case, and takes the first row the database returns. The handlers of the
reference data and the unique index keep names apart that differ in their case only.

`ReferenceStore.next` is the machine of these handlers. No name in a file ever matches two
active rows exactly when every name that is given to an active row is one that no name in a file
matches along with that of another one (`unambiguous_iff`).
-/

namespace RatelPlatform

/-! ## The machine -/

namespace ReferenceStore

/-- The ids of the rows of a kind. -/
def rowIds (d : ReferenceStore) (type : ReferenceDataType) : List Id :=
  (d.rows type).map ReferenceRow.id

/-- No row of the reference data has the id. -/
def Unused (d : ReferenceStore) (id : Id) : Prop := ∀ type, id ∉ d.rowIds type

theorem unused_iff {d : ReferenceStore} {id : Id} : d.Unused id ↔
    id ∉ d.rowIds .department ∧ id ∉ d.rowIds .vendor ∧ id ∉ d.rowIds .expenseCategory ∧
      id ∉ d.rowIds .project := by
  refine ⟨?_, ?_⟩
  · exact fun h => ⟨h _, h _, h _, h _⟩
  · rintro ⟨hdepartment, hvendor, hcategory, hproject⟩ (_ | _ | _ | _)
    · exact hdepartment
    · exact hvendor
    · exact hcategory
    · exact hproject

instance (d : ReferenceStore) (id : Id) : Decidable (d.Unused id) :=
  decidable_of_iff' _ unused_iff

/-- The reference data after a command. An id that is drawn is one that is not in use; a
command that fails changes nothing. -/
def next (d : ReferenceStore) : Env × ReferenceDataCommand → Option ReferenceStore
  | (env, cmd) =>
    if d.Unused env.uuid then
      match (cmd.program env).solo d with
      | .ok (_, d') => some d'
      | .error _ => some d
    else none

variable {d d' : ReferenceStore} {env : Env} {cmd : ReferenceDataCommand}

/-- **What a command does**: all of its transaction, or nothing when that fails. -/
theorem next_cases (hn : d.next (env, cmd) = some d') : d.Unused env.uuid ∧
    (((cmd.program env).solo d = .ok ((), d')) ∨
      d' = d ∧ ∃ e, (cmd.program env).solo d = .error e) := by
  simp only [next] at hn
  split_ifs at hn with hunused
  refine ⟨hunused, ?_⟩
  rcases hsolo : (cmd.program env).solo d with e | ⟨_, d''⟩
  · rw [hsolo] at hn
    obtain rfl := Option.some.inj hn
    exact .inr ⟨rfl, e, rfl⟩
  · rw [hsolo] at hn
    obtain rfl := Option.some.inj hn
    exact .inl rfl

/-- **A created row** is appended, active and with its name; else the name was taken. -/
theorem next_create {type : ReferenceDataType} {cmd : CreateReferenceDataCommand}
    (hn : d.next (env, .create type cmd) = some d') : d.Unused env.uuid ∧
    (¬ d.NameTaken type cmd.organizationId cmd.name ∧
        d'.names = Function.update d.names env.uuid cmd.name ∧
        (∀ type', d'.rows type' = if type' = type then
          d.rows type ++ [⟨env.uuid, cmd.organizationId, true⟩] else d.rows type') ∨
      d.NameTaken type cmd.organizationId cmd.name ∧ d' = d) := by
  obtain ⟨hunused, h | ⟨rfl, e, hfails⟩⟩ := next_cases hn
  · rw [ReferenceDataCommand.program_create] at h
    obtain ⟨_, h⟩ := Tx.solo_discard_ok.mp h
    obtain ⟨hname, -, -, rfl⟩ := createReferenceData_ok.mp h
    exact ⟨hunused, .inl ⟨hname, rfl, fun _ => ReferenceDataType.rows_withRows _ _ _ _⟩⟩
  · refine ⟨hunused, .inr ⟨by_contra fun hname => ?_, rfl⟩⟩
    have hids : ∀ r ∈ d'.rows type, r.id ≠ env.uuid :=
      fun r hr hid => hunused type (hid ▸ List.mem_map_of_mem hr)
    rw [ReferenceDataCommand.program_create] at hfails
    cases hfails.symm.trans
      ((Tx.solo_discard_ok (a := ())).mpr ⟨_, createReferenceData_ok.mpr ⟨hname, hids, rfl, rfl⟩⟩)

/-- **A renamed row** is one of the organization; else nothing changes. -/
theorem next_update {type : ReferenceDataType} {cmd : UpdateReferenceDataCommand}
    (hn : d.next (env, .update type cmd) = some d') :
    (d.IsOwn type cmd.id cmd.organizationId ∧
        ¬ d.NameCollides type cmd.organizationId cmd.id cmd.name) ∧
      d'.names = Function.update d.names cmd.id cmd.name ∧ (∀ type', d'.rows type' = d.rows type') ∨
    ¬ (d.IsOwn type cmd.id cmd.organizationId ∧
        ¬ d.NameCollides type cmd.organizationId cmd.id cmd.name) ∧ d' = d := by
  obtain ⟨-, h | ⟨rfl, e, hfails⟩⟩ := next_cases hn
  · rw [ReferenceDataCommand.program_update] at h
    obtain ⟨hown, hname, rfl⟩ := updateReferenceData_ok.mp h
    exact .inl ⟨⟨hown, hname⟩, rfl, fun _ => rfl⟩
  · refine .inr ⟨fun ⟨hown, hname⟩ => ?_, rfl⟩
    rw [ReferenceDataCommand.program_update] at hfails
    cases hfails.symm.trans ((updateReferenceData_ok (a := ())).mpr ⟨hown, hname, rfl⟩)

/-- **A deactivation** changes no name and no id, and activates nothing. -/
theorem next_deactivate {type : ReferenceDataType} {cmd : DeactivateReferenceDataCommand}
    (hn : d.next (env, .deactivate type cmd) = some d') : d'.names = d.names ∧
    ∃ f : ReferenceDataType → ReferenceRow → ReferenceRow,
      (∀ type', d'.rows type' = (d.rows type').map (f type')) ∧
        ∀ type' r, (f type' r).id = r.id ∧ (f type' r).organizationId = r.organizationId ∧
          ((f type' r).isActive = true → r.isActive = true) := by
  obtain ⟨-, h | ⟨rfl, -⟩⟩ := next_cases hn
  · rw [ReferenceDataCommand.program_deactivate] at h
    obtain ⟨-, rfl⟩ := deactivateReferenceData_ok.mp h
    refine ⟨rfl, fun type' r =>
      if type' = type ∧ r.id = cmd.id then { r with isActive := false } else r, ?_, ?_⟩
    · intro type'
      refine (ReferenceDataType.rows_withRows _ _ _ _).trans ?_
      by_cases htype : type' = type
      · simp [htype]
      · simp [htype, rows]
    · intro type' r
      dsimp only
      split_ifs
      · simp
      · simp
  · exact ⟨rfl, fun _ r => r, by simp, by simp⟩

/-! ## Ids -/

/-- No two rows of the reference data have the same id. -/
structure Keyed (d : ReferenceStore) : Prop where
  nodup : ∀ type, (d.rowIds type).Nodup
  disjoint : ∀ type type', type ≠ type' → (d.rowIds type).Disjoint (d.rowIds type')

/-- Rows keep the ids they were created with. -/
theorem Keyed.next {event : Env × ReferenceDataCommand} (h : d.Keyed)
    (hn : d.next event = some d') : d'.Keyed := by
  have same : (∀ type, d'.rowIds type = d.rowIds type) → d'.Keyed := fun hids =>
    ⟨fun type => hids type ▸ h.nodup type,
      fun type type' hne => hids type ▸ hids type' ▸ h.disjoint type type' hne⟩
  obtain ⟨env, cmd⟩ := event
  cases cmd with
  | create type cmd =>
    obtain ⟨hunused, ⟨-, -, hrows⟩ | ⟨-, rfl⟩⟩ := next_create hn
    · have hids : ∀ type', d'.rowIds type' =
          if type' = type then d.rowIds type ++ [env.uuid] else d.rowIds type' := by
        intro type'
        rw [rowIds, hrows]
        split_ifs
        · simp [rowIds]
        · rfl
      refine ⟨?_, ?_⟩
      · intro type'
        rw [hids]
        split_ifs
        · have hnew : ∀ id ∈ d.rowIds type, id ≠ env.uuid :=
            fun id hid => ne_of_mem_of_not_mem hid (hunused type)
          simpa [List.nodup_append] using ⟨h.nodup type, hnew⟩
        · exact h.nodup type'
      · intro type₁ type₂ hne
        rw [hids, hids]
        split_ifs with h₁ h₂ h₂
        · exact absurd (h₁.trans h₂.symm) hne
        · obtain rfl := h₁
          exact List.disjoint_append_left.mpr
            ⟨h.disjoint _ _ hne, List.singleton_disjoint.mpr (hunused type₂)⟩
        · obtain rfl := h₂
          exact List.disjoint_append_right.mpr
            ⟨h.disjoint _ _ hne, List.disjoint_singleton.mpr (hunused type₁)⟩
        · exact h.disjoint _ _ hne
    · exact h
  | update type cmd =>
    obtain ⟨-, -, hrows⟩ | ⟨-, rfl⟩ := next_update hn
    · exact same fun type' => by rw [rowIds, hrows, rowIds]
    · exact h
  | deactivate type cmd =>
    obtain ⟨-, f, hrows, hf⟩ := next_deactivate hn
    refine same fun type' => ?_
    rw [rowIds, hrows, List.map_map, rowIds]
    exact List.map_congr_left fun r _ => (hf type' r).1

/-! ## What a name in a file matches -/

section

variable (runtime : ImportRuntime)

/-- It is an active row of the organization, and the name in a file matches its name. -/
def matchesRow (d : ReferenceStore) : Id × String → ReferenceRow → Bool
  | (organizationId, name), r => decide (r.organizationId = organizationId) &&
      runtime.equalsInsensitive (d.names r.id) name && r.isActive

/-- The rows of a kind that a name in a file of the organization matches. -/
def matching (d : ReferenceStore) (type : ReferenceDataType) (organizationId : Id)
    (name : String) : List ReferenceRow :=
  (d.rows type).filter (d.matchesRow runtime (organizationId, name))

/-- A name in a file matches at most one row of the kind, so that the row that is found is the
same whichever the database returns first. -/
structure TellsApart (d : ReferenceStore) (type : ReferenceDataType) : Prop where
  atMostOne : ∀ organizationId name, (d.matching runtime type organizationId name).length ≤ 1
  anyOrder : ∀ (job : ImportJob) (t : ImportTables), t.store = d.store → t.names = d.names →
    ∀ name tie tie', findByName runtime job t (ReferenceDataType.rows · type) name tie =
      findByName runtime job t (ReferenceDataType.rows · type) name tie'

/-- The kinds of which the mapper finds rows by their names: `department`, `expenseCategory` -/
def foundByName : List ReferenceDataType := [.department, .expenseCategory]

/-- The import can tell the departments and the categories apart. -/
def Unambiguous (d : ReferenceStore) : Prop := ∀ type ∈ foundByName, d.TellsApart runtime type

/-- Some name in a file matches both names. -/
def SameForImport : String → String → Prop :=
  MatchedTogether fun inFile name => runtime.equalsInsensitive name inFile

/-- An active row of the organization other than `id` has a name that is the same for the
import. -/
def BlursWith (d : ReferenceStore) (type : ReferenceDataType) (organizationId id : Id)
    (name : String) : Prop :=
  ∃ r ∈ d.rows type, r.organizationId = organizationId ∧ r.isActive = true ∧ r.id ≠ id ∧
    SameForImport runtime (d.names r.id) name

/-- A department or a category that is created, or is active and renamed, gets a name that
differs for the import from those of the other active ones; or the command is refused. -/
def NamesApart (d : ReferenceStore) : Env × ReferenceDataCommand → Prop
  | (env, .create type cmd) => type ∈ foundByName →
      ¬ d.NameTaken type cmd.organizationId cmd.name →
      ¬ d.BlursWith runtime type cmd.organizationId env.uuid cmd.name
  | (_, .update type cmd) => type ∈ foundByName →
      HasActive (d.rows type) cmd.id cmd.organizationId →
      ¬ d.NameCollides type cmd.organizationId cmd.id cmd.name →
      ¬ d.BlursWith runtime type cmd.organizationId cmd.id cmd.name
  | (_, .deactivate _ _) => True

end

variable {runtime : ImportRuntime} {type : ReferenceDataType}

theorem SameForImport.symm {a b : String} (h : SameForImport runtime a b) :
    SameForImport runtime b a := MatchedTogether.symm h

/-- No name in a file matches both rows. -/
def Apart (runtime : ImportRuntime) (d : ReferenceStore) (r r' : ReferenceRow) : Prop :=
  ¬ MatchedTogether (d.matchesRow runtime) r r'

theorem apart_iff {r r' : ReferenceRow} : d.Apart runtime r r' ↔
    (r.organizationId = r'.organizationId → r.isActive = true → r'.isActive = true →
      ¬ SameForImport runtime (d.names r.id) (d.names r'.id)) := by
  simp only [Apart, SameForImport, MatchedTogether, matchesRow, Bool.and_eq_true,
    decide_eq_true_eq]
  refine ⟨?_, ?_⟩
  · rintro h horg hr hr' ⟨name, hname, hname'⟩
    exact h ⟨(r'.organizationId, name), ⟨⟨horg, hname⟩, hr⟩, ⟨rfl, hname'⟩, hr'⟩
  · rintro h ⟨⟨_, name⟩, ⟨⟨rfl, hname⟩, hr⟩, ⟨horg, hname'⟩, hr'⟩
    exact h horg.symm hr hr' ⟨name, hname, hname'⟩

theorem Apart.symm {r r' : ReferenceRow} (h : d.Apart runtime r r') : d.Apart runtime r' r :=
  fun h' => h h'.symm

/-- Of at most one match, any lookup returns that one. -/
theorem findFirst_eq_find {rows : List ReferenceRow} {p : ReferenceRow → Bool}
    (hone : (rows.filter p).length ≤ 1) (tie : Id) : findFirst rows p tie = rows.find? p := by
  rcases htie : rows.find? fun r => p r && r.id == tie with _ | r
  · rw [findFirst, htie, Option.none_or]
  · have hr := List.find?_some htie
    have hpr : p r = true := (Bool.and_eq_true _ _ ▸ hr).1
    have hmem : r ∈ rows.filter p :=
      List.mem_filter.mpr ⟨List.mem_of_find?_eq_some htie, hpr⟩
    -- the filtered list is `[r]`
    have hsingle : rows.filter p = [r] := by
      obtain ⟨a, ha⟩ := List.length_eq_one_iff.mp
        (Nat.le_antisymm hone (List.length_pos_of_mem hmem))
      rw [ha] at hmem ⊢
      rw [List.mem_singleton.mp hmem]
    rw [findFirst, htie, Option.some_or, ← List.head?_filter, hsingle, List.head?_cons]

/-- **When a kind is told apart**: no two rows of it are matched together. -/
theorem tellsApart_iff : d.TellsApart runtime type ↔ (d.rows type).Pairwise (d.Apart runtime) := by
  have hone : (∀ organizationId name, (d.matching runtime type organizationId name).length ≤ 1) ↔
      (d.rows type).Pairwise (d.Apart runtime) :=
    Prod.forall.symm.trans length_filter_le_one_iff
  refine ⟨fun h => hone.mp h.atMostOne, fun h => ⟨hone.mpr h, ?_⟩⟩
  rintro job t hstore hnames name tie tie'
  have hmatch := hone.mpr h job.organizationId name
  simp only [findByName, hstore, hnames]
  exact (findFirst_eq_find hmatch tie).trans (findFirst_eq_find hmatch tie').symm

/-! ## What a command does to the names -/

/-- Other rows' names do not matter. -/
theorem apart_congr {r r' : ReferenceRow} (hr : d'.names r.id = d.names r.id)
    (hr' : d'.names r'.id = d.names r'.id) : d'.Apart runtime r r' ↔ d.Apart runtime r r' := by
  rw [apart_iff, apart_iff, hr, hr']

/-- The rows of a kind keep their names. -/
theorem pairwise_apart_congr (hnames : ∀ id ∈ d.rowIds type, d'.names id = d.names id) :
    (d.rows type).Pairwise (d'.Apart runtime) ↔ (d.rows type).Pairwise (d.Apart runtime) := by
  refine List.Pairwise.iff_of_mem fun {r r'} hr hr' => apart_congr ?_ ?_
  · exact hnames _ (List.mem_map_of_mem hr)
  · exact hnames _ (List.mem_map_of_mem hr')

/-- A row with a new name stands apart from the others unless the name blurs with theirs. -/
theorem forall_apart_iff (runtime : ImportRuntime) (type : ReferenceDataType)
    {row : ReferenceRow} {name : String}
    (hnames : d'.names = Function.update d.names row.id name) :
    (∀ r ∈ d.rows type, r.id ≠ row.id → d'.Apart runtime r row) ↔
      (row.isActive = true → ¬ d.BlursWith runtime type row.organizationId row.id name) := by
  have happart : ∀ r, r.id ≠ row.id → (d'.Apart runtime r row ↔
      (r.organizationId = row.organizationId → r.isActive = true → row.isActive = true →
        ¬ SameForImport runtime (d.names r.id) name)) := by
    intro r hid
    rw [apart_iff, hnames, Function.update_of_ne hid, Function.update_self]
  refine ⟨?_, ?_⟩
  · rintro h hactive ⟨r, hr, horg, hractive, hid, hsame⟩
    exact (happart r hid).mp (h r hr hid) horg hractive hactive hsame
  · intro h r hr hid
    exact (happart r hid).mpr fun horg hractive hactive hsame =>
      h hactive ⟨r, hr, horg, hractive, hid, hsame⟩

/-- **A row is created.** -/
theorem tellsApart_create {row : ReferenceRow} {name : String}
    (hactive : row.isActive = true) (hid : row.id ∉ d.rowIds type)
    (hrows : d'.rows type = d.rows type ++ [row])
    (hnames : d'.names = Function.update d.names row.id name) (h : d.TellsApart runtime type) :
    d'.TellsApart runtime type ↔ ¬ d.BlursWith runtime type row.organizationId row.id name := by
  have hother : ∀ r ∈ d.rows type, r.id ≠ row.id :=
    fun r hr heq => hid (heq ▸ List.mem_map_of_mem hr)
  have hold : (d.rows type).Pairwise (d'.Apart runtime) := by
    refine (pairwise_apart_congr fun id hmem => ?_).mpr (tellsApart_iff.mp h)
    rw [hnames, Function.update_of_ne (ne_of_mem_of_not_mem hmem hid)]
  have hnew := forall_apart_iff runtime type hnames
  simp only [hactive, forall_const] at hnew
  rw [tellsApart_iff, hrows, pairwise_concat_iff, ← hnew]
  exact ⟨fun h r hr _ => h.2 r hr, fun h => ⟨hold, fun r hr => h r hr (hother r hr)⟩⟩

/-- **A row is renamed.** -/
theorem tellsApart_rename {row : ReferenceRow} {name : String} (hkeyed : d.Keyed)
    (hrow : row ∈ d.rows type) (hrows : d'.rows type = d.rows type)
    (hnames : d'.names = Function.update d.names row.id name) (h : d.TellsApart runtime type) :
    d'.TellsApart runtime type ↔
      (row.isActive = true → ¬ d.BlursWith runtime type row.organizationId row.id name) := by
  rw [tellsApart_iff, hrows, pairwise_relabel_iff (hkeyed.nodup type) hrow Apart.symm ?_
    (tellsApart_iff.mp h)]
  · exact forall_apart_iff runtime type hnames
  · intro r r' hr hr'
    refine apart_congr ?_ ?_
    · rw [hnames, Function.update_of_ne hr]
    · rw [hnames, Function.update_of_ne hr']

/-- **A row is deactivated.** -/
theorem TellsApart.deactivate {f : ReferenceRow → ReferenceRow}
    (hnames : d'.names = d.names) (hrows : d'.rows type = (d.rows type).map f)
    (hf : ∀ r, (f r).id = r.id ∧ (f r).organizationId = r.organizationId ∧
      ((f r).isActive = true → r.isActive = true)) (h : d.TellsApart runtime type) :
    d'.TellsApart runtime type := by
  rw [tellsApart_iff, hrows, List.pairwise_map]
  refine (tellsApart_iff.mp h).imp fun {r r'} happart => ?_
  obtain ⟨hid, horg, hactive⟩ := hf r
  obtain ⟨hid', horg', hactive'⟩ := hf r'
  rw [apart_iff] at happart ⊢
  rw [hnames, hid, hid', horg, horg']
  exact fun hsame hr hr' => happart hsame (hactive hr) (hactive' hr')

/-- **A command about one kind**, which leaves the others as they are, keeps the names apart when
it keeps those of that kind apart. -/
theorem unambiguous_iff_tellsApart (h : d.Unambiguous runtime)
    (hrows : ∀ type', type' ≠ type → d'.rows type' = d.rows type')
    (hnames : ∀ type', type' ≠ type → ∀ id ∈ d.rowIds type', d'.names id = d.names id) :
    d'.Unambiguous runtime ↔ (type ∈ foundByName → d'.TellsApart runtime type) := by
  refine ⟨fun hd' => hd' type, fun htells type' htype' => ?_⟩
  by_cases htype : type' = type
  · subst htype
    exact htells htype'
  · rw [tellsApart_iff, hrows type' htype, pairwise_apart_congr (hnames type' htype)]
    exact tellsApart_iff.mp (h type' htype')

/-- **One command** keeps the names apart exactly when it gives such a name. -/
theorem unambiguous_next {event : Env × ReferenceDataCommand} (hkeyed : d.Keyed)
    (h : d.Unambiguous runtime) (hn : d.next event = some d') :
    d'.Unambiguous runtime ↔ d.NamesApart runtime event := by
  obtain ⟨env, cmd⟩ := event
  cases cmd with
  | create type cmd =>
    obtain ⟨hunused, ⟨hname, hnames, hrows⟩ | ⟨hname, rfl⟩⟩ := next_create hn
    · have hothers : ∀ type', type' ≠ type → ∀ id ∈ d.rowIds type', d'.names id = d.names id := by
        rintro type' - id hid
        rw [hnames, Function.update_of_ne (ne_of_mem_of_not_mem hid (hunused type'))]
      rw [unambiguous_iff_tellsApart h (fun type' hne => (hrows type').trans (if_neg hne)) hothers]
      refine forall_congr' fun htype => ?_
      rw [tellsApart_create rfl (hunused type) ((hrows type).trans (if_pos rfl)) hnames
        (h type htype)]
      exact ⟨fun hblurs _ => hblurs, fun hblurs => hblurs hname⟩
    · exact iff_of_true h fun _ hfree => absurd hname hfree
  | update type cmd =>
    obtain ⟨⟨⟨row, hrow, hid, horg⟩, hname⟩, hnames, hrows⟩ | ⟨hrefused, rfl⟩ := next_update hn
    · have hactive : HasActive (d.rows type) cmd.id cmd.organizationId ↔ row.isActive = true := by
        refine ⟨?_, ?_⟩
        · rintro ⟨r, hr, hrid, -, hractive⟩
          obtain rfl := List.inj_on_of_nodup_map (hkeyed.nodup type) hr hrow (hrid.trans hid.symm)
          exact hractive
        · exact fun hractive => ⟨row, hrow, hid, horg, hractive⟩
      have hothers : ∀ type', type' ≠ type → ∀ id ∈ d.rowIds type', d'.names id = d.names id := by
        intro type' hne id' hid'
        -- the renamed row is of another kind
        have hother : id' ≠ cmd.id := by
          rintro rfl
          exact hkeyed.disjoint _ _ hne hid' (hid ▸ List.mem_map_of_mem hrow)
        rw [hnames, Function.update_of_ne hother]
      rw [unambiguous_iff_tellsApart h (fun type' _ => hrows type') hothers]
      refine forall_congr' fun htype => ?_
      rw [tellsApart_rename hkeyed hrow (hrows type) (hid.symm ▸ hnames) (h type htype), horg, hid,
        hactive]
      exact ⟨fun hblurs hrow' _ => hblurs hrow', fun hblurs hrow' => hblurs hrow' hname⟩
    · refine iff_of_true h fun _ hrow hname => absurd ⟨?_, hname⟩ hrefused
      obtain ⟨r, hr, hid, horg, -⟩ := hrow
      exact ⟨r, hr, hid, horg⟩
  | deactivate type cmd =>
    obtain ⟨hnames, f, hrows, hf⟩ := next_deactivate hn
    exact iff_of_true (fun type' htype' => (h type' htype').deactivate hnames (hrows type')
      (hf type')) trivial

/-- **When the names can be told apart**: at the start, and by every command that names an
active department or category. -/
theorem unambiguous_iff {d₀ : ReferenceStore} {events : List (Env × ReferenceDataCommand)}
    (hkeyed : d₀.Keyed) (hr : Reaches ReferenceStore.next (fun _ _ => True) d₀ events d) :
    Throughout ReferenceStore.next d₀ events (Unambiguous runtime) ↔
      d₀.Unambiguous runtime ∧ Reaches ReferenceStore.next (NamesApart runtime) d₀ events d := by
  have hids : ∀ {before u}, Reaches ReferenceStore.next (fun _ _ => True) d₀ before u → u.Keyed :=
    fun hr => hr.invariant hkeyed fun _ _ _ h _ hn => h.next hn
  have hexact : d₀.Unambiguous runtime →
      (Throughout ReferenceStore.next d₀ events (fun u => u.Keyed ∧ u.Unambiguous runtime) ↔
        Reaches ReferenceStore.next (NamesApart runtime) d₀ events d) := fun h₀ =>
    Reaches.throughout_iff ⟨hkeyed, h₀⟩ (fun _ _ _ h hn =>
      (and_iff_right (h.1.next hn)).trans (unambiguous_next h.1 h.2 hn)) hr
  refine ⟨?_, ?_⟩
  · intro h
    have h₀ := h [] d₀ List.nil_prefix .nil
    exact ⟨h₀, (hexact h₀).mp fun before u hbefore hu => ⟨hids hu, h before u hbefore hu⟩⟩
  · rintro ⟨h₀, hok⟩ before u hbefore hu
    exact ((hexact h₀).mpr hok before u hbefore hu).2

/-! ## A comparison by a normal form -/

section

variable {β : Type} [DecidableEq β] {f : String → β}

/-- Names are the same for an import that compares them by a normal form, such as that without
upper case, when they have the same one. -/
theorem sameForImport_iff (hf : ∀ a b, runtime.equalsInsensitive a b = decide (f a = f b))
    {a b : String} : SameForImport runtime a b ↔ f a = f b := by
  simp only [SameForImport, hf]
  exact matchedTogether_normalForm f

end

instance [∀ a b, Decidable (SameForImport runtime a b)] (organizationId id : Id) (name : String) :
    Decidable (d.BlursWith runtime type organizationId id name) :=
  inferInstanceAs (Decidable (∃ r ∈ d.rows type, _))

instance [∀ a b, Decidable (SameForImport runtime a b)] :
    ∀ event, Decidable (d.NamesApart runtime event)
  | (_, .create _ _) => inferInstanceAs (Decidable (_ → _))
  | (_, .update _ _) => inferInstanceAs (Decidable (_ → _))
  | (_, .deactivate _ _) => inferInstanceAs (Decidable True)

end ReferenceStore

/-! ## Two departments with one name -/

namespace Sample

/-- The name without upper case. -/
def lowerCase (name : String) : List Char := name.toList.map Char.toLower

/-- The surroundings with a comparison that ignores case. -/
def ignoringCase : ImportRuntime :=
  { importRuntime with equalsInsensitive := fun a b => decide (lowerCase a = lowerCase b) }

instance (a b : String) : Decidable (ReferenceStore.SameForImport ignoringCase a b) :=
  decidable_of_iff' (lowerCase a = lowerCase b) (ReferenceStore.sameForImport_iff fun _ _ => rfl)

/-- Nothing has been set up. -/
def noReferenceData : ReferenceStore := ⟨fun _ => "", .initial ⟨[], [], [], [], [], [], []⟩⟩

/-- The organization has a department 'Ops', and gets a department 'OPS'. -/
def opsTwice : List (Env × ReferenceDataCommand) :=
  [(⟨noon, 2, 0⟩, .create .department ⟨1, "Ops"⟩), (⟨noon, 3, 0⟩, .create .department ⟨1, "OPS"⟩)]

/-- The department 'Ops' is deactivated before 'Sales' is renamed to 'OPS'. -/
def opsAfterOps : List (Env × ReferenceDataCommand) :=
  [(⟨noon, 2, 0⟩, .create .department ⟨1, "Ops"⟩), (⟨noon, 3, 0⟩, .create .department ⟨1, "Sales"⟩),
    (⟨noon, 4, 0⟩, .create .expenseCategory ⟨1, "ops"⟩),
    (⟨noon, 5, 0⟩, .deactivate .department ⟨2, 1, 15⟩),
    (⟨noon, 5, 0⟩, .update .department ⟨3, 1, "OPS"⟩)]

end Sample

namespace ReferenceStore

theorem keyed_noReferenceData : Sample.noReferenceData.Keyed where
  nodup := by rintro (_ | _ | _ | _) <;> exact List.nodup_nil
  disjoint := by rintro (_ | _ | _ | _) _ - <;> exact List.disjoint_nil_left _

theorem unambiguous_iff_sample : Throughout ReferenceStore.next Sample.noReferenceData
    Sample.opsAfterOps (Unambiguous Sample.ignoringCase) := by
  have hcheck : ∀ (d : ReferenceStore) event,
      decide (d.NamesApart Sample.ignoringCase event) = true →
      d.NamesApart Sample.ignoringCase event := fun _ _ => of_decide_eq_true
  obtain ⟨d, hr⟩ : ∃ d, Reaches ReferenceStore.next (NamesApart Sample.ignoringCase)
      Sample.noReferenceData Sample.opsAfterOps d :=
    exists_reaches_of_checked hcheck (by decide +kernel)
  refine (unambiguous_iff keyed_noReferenceData (hr.mono fun _ _ _ => trivial)).mpr ⟨?_, hr⟩
  rintro (_ | _ | _ | _) - <;> exact tellsApart_iff.mpr List.Pairwise.nil

/-- **A name that matches two departments**: which of them an expense is charged to is up to the
database. -/
theorem ops_matches_two : ¬ ∀ (events : List (Env × ReferenceDataCommand)) (d : ReferenceStore),
    Reaches ReferenceStore.next (fun _ _ => True) Sample.noReferenceData events d →
    d.Unambiguous Sample.ignoringCase := by
  intro hall
  have htwo : (runLabels ReferenceStore.next Sample.noReferenceData Sample.opsTwice).map (fun d =>
      (d.matching Sample.ignoringCase .department 1 "ops").length) = some 2 := by decide +kernel
  obtain ⟨d, hd, hlength⟩ := Option.map_eq_some_iff.mp htwo
  have hone := (hall _ d (reaches_of_runLabels hd) .department (by decide)).atMostOne 1 "ops"
  omega

end ReferenceStore

end RatelPlatform
