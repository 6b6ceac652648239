import RatelPlatform.PayrollTenancy
import RatelPlatform.RelyGuarantee

/-!
# The versions of a salary structure

The versions of an employee's salary structure form a history: they are numbered from one
on, the last one is open, and every other one ends where the next one begins
(`VersionHistory`).

A new version is written in two statements, after a read that takes no lock: the version
that was read is closed, and the next one is inserted. Another transaction may have done
the same in between; then the number of the next version is taken, its insertion fails, and
what was written is rolled back. So the histories survive every interleaving
(`versions_interleaved`), because of the unique index on the employee and the version alone.
-/

namespace RatelPlatform

variable {rows init : List SalaryStructureProps} {s t row : SalaryStructureProps}

/-- The versions of one employee, oldest first. -/
structure VersionHistory (rows : List SalaryStructureProps) : Prop where
  versions : rows.map SalaryStructureProps.version = List.range' 1 rows.length
  chain : rows.IsChain fun s t => s.effectiveTo = some t.effectiveFrom
  last : ∀ s ∈ rows.getLast?, s.effectiveTo = none

namespace VersionHistory

theorem nil : VersionHistory [] := ⟨rfl, .nil, fun _ hs => nomatch hs⟩

theorem singleton (hversion : s.version = 1) (hopen : s.effectiveTo = none) :
    VersionHistory [s] := by
  refine ⟨by simp [hversion], .singleton s, ?_⟩
  rintro _ ⟨⟩
  exact hopen

/-- The versions are the numbers up to that of the last one. -/
theorem version_eq_length (h : VersionHistory (init ++ [s])) : s.version = init.length + 1 := by
  have hversions := h.versions
  rw [List.map_append, List.length_append, List.length_singleton, List.range'_concat] at hversions
  have hlast := List.singleton_inj.mp (List.append_inj' hversions rfl).2
  omega

theorem mem_version_iff (h : VersionHistory rows) {version : ℕ} :
    (∃ s ∈ rows, s.version = version) ↔ 1 ≤ version ∧ version ≤ rows.length := by
  have hmem : (∃ s ∈ rows, s.version = version) ↔
      version ∈ rows.map SalaryStructureProps.version := by simp
  rw [hmem, h.versions, List.mem_range'_1]
  omega

/-- A history is empty unless it has a first version. -/
theorem eq_nil (h : VersionHistory rows) (hfirst : ∀ s ∈ rows, s.version ≠ 1) : rows = [] := by
  by_contra hne
  have hlength := List.length_pos_iff.mpr hne
  obtain ⟨s, hs, hone⟩ := h.mem_version_iff.mpr ⟨le_refl 1, hlength⟩
  exact hfirst s hs hone

/-- A version without a next one is the last one. -/
theorem eq_snoc (h : VersionHistory rows) (hs : s ∈ rows)
    (hnext : ∀ t ∈ rows, t.version ≠ s.version + 1) : ∃ init, rows = init ++ [s] := by
  obtain ⟨hpos, hle⟩ := h.mem_version_iff.mp ⟨s, hs, rfl⟩
  have hversion : s.version = rows.length := by
    by_contra hne
    obtain ⟨t, ht, hsucc⟩ := h.mem_version_iff.mpr ⟨Nat.le_add_left 1 s.version, by omega⟩
    exact hnext t ht hsucc
  obtain ⟨init, l, rfl⟩ : ∃ init l, rows = init ++ [l] :=
    (List.eq_nil_or_concat' rows).resolve_left fun hnil => by simp [hnil] at hs
  refine ⟨init, ?_⟩
  rcases List.mem_append.mp hs with hinit | hlast
  · -- the versions before the last one have smaller numbers
    obtain ⟨i, hi, rfl⟩ := List.getElem_of_mem hinit
    have hget : (init ++ [l]).map SalaryStructureProps.version = _ := h.versions
    have hnumber := congrArg (fun ns : List ℕ => ns[i]?) hget
    simp only [List.getElem?_map, List.length_append, List.length_singleton] at hnumber
    rw [List.getElem?_append_left hi, List.getElem?_eq_getElem hi,
      List.getElem?_range' (by omega)] at hnumber
    simp only [Option.map_some, Option.some.injEq, List.length_append,
      List.length_singleton] at hnumber hversion
    omega
  · rw [List.mem_singleton.mp hlast]

/-- **The next version**: the last one is closed where the next one begins. -/
theorem snoc (h : VersionHistory (init ++ [s])) (hversion : row.version = s.version + 1)
    (hopen : row.effectiveTo = none) :
    VersionHistory (init ++ [{ s with effectiveTo := some row.effectiveFrom }] ++ [row]) := by
  have hlength := h.version_eq_length
  refine ⟨?_, ?_, ?_⟩
  · have hversions := h.versions
    simp only [List.map_append, List.map_singleton, List.length_append, List.length_singleton,
      List.range'_concat] at hversions ⊢
    rw [(List.append_inj' hversions rfl).1, hversion, hlength]
    simp [Nat.add_comm]
  · obtain ⟨hinit, -, hlast⟩ := List.isChain_append.mp h.chain
    refine List.isChain_append.mpr ⟨List.isChain_append.mpr ⟨hinit, .singleton _, ?_⟩,
      .singleton _, ?_⟩
    · rintro t ht _ ⟨⟩
      exact hlast t ht s rfl
    · intro t ht u hu
      rw [List.getLast?_concat, Option.mem_some_iff] at ht
      rw [List.head?_cons, Option.mem_some_iff] at hu
      rw [← ht, ← hu]
  · intro t ht
    rw [List.getLast?_concat, Option.mem_some_iff] at ht
    rw [← ht]
    exact hopen

end VersionHistory

/-- The rows of all employees: each has an id of its own, and each employee a history. -/
structure WellVersioned (rows : List SalaryStructureProps) : Prop where
  ids : (rows.map SalaryStructureProps.id).Nodup
  histories : ∀ employeeId, VersionHistory (rows.filter fun s => s.employeeId = employeeId)

namespace WellVersioned

theorem nil : WellVersioned [] := ⟨List.nodup_nil, fun _ => .nil⟩

/-- The rows of an employee once a row is added. -/
theorem filter_snoc (rows : List SalaryStructureProps) (row : SalaryStructureProps)
    (employeeId : Id) : (rows ++ [row]).filter (fun s => s.employeeId = employeeId) =
      rows.filter (fun s => s.employeeId = employeeId) ++
        if row.employeeId = employeeId then [row] else [] := by
  rw [List.filter_append]
  split_ifs with h
  · simp [h]
  · simp [h]

theorem ids_snoc (h : (rows.map SalaryStructureProps.id).Nodup) (hid : ∀ s ∈ rows, s.id ≠ row.id) :
    ((rows ++ [row]).map SalaryStructureProps.id).Nodup := by
  rw [List.map_append, List.map_singleton]
  refine h.append (List.nodup_singleton _) ?_
  rw [List.disjoint_singleton]
  intro hmem
  obtain ⟨s, hs, heq⟩ := List.mem_map.mp hmem
  exact hid s hs heq

/-- A first version, for an employee who has none. -/
theorem addFirst (h : WellVersioned rows) (hid : ∀ s ∈ rows, s.id ≠ row.id)
    (hfree : ∀ s ∈ rows, s.employeeId = row.employeeId → s.version ≠ row.version)
    (hversion : row.version = 1) (hopen : row.effectiveTo = none) :
    WellVersioned (rows ++ [row]) := by
  refine ⟨ids_snoc h.ids hid, fun employeeId => ?_⟩
  rw [filter_snoc]
  split_ifs with hof
  · have hnil := (h.histories employeeId).eq_nil fun s hs => ?_
    · rw [hnil]
      exact .singleton hversion hopen
    · obtain ⟨hs, hmine⟩ := List.mem_filter.mp hs
      rw [← hversion]
      exact hfree s hs ((of_decide_eq_true hmine).trans hof.symm)
  · rw [List.append_nil]
    exact h.histories employeeId

/-- The next version of a structure: the version before it is closed. -/
theorem addNext (h : WellVersioned rows) (hs : s ∈ rows) {props : SalaryStructureProps}
    (hprops : props.id = s.id) {date : JsDate} (hdate : props.effectiveTo = some date)
    (hid : ∀ s ∈ rows, s.id ≠ row.id)
    (hfree : ∀ s ∈ rows, s.employeeId = row.employeeId → s.version ≠ row.version)
    (hof : row.employeeId = s.employeeId) (hversion : row.version = s.version + 1)
    (hfrom : row.effectiveFrom = date.day) (hopen : row.effectiveTo = none) :
    WellVersioned (SalaryStructureRepository.writeEffectiveTo props rows ++ [row]) := by
  constructor
  · have hids := SalaryStructureRepository.map_id_writeEffectiveTo props rows
    refine ids_snoc (hids ▸ h.ids) fun s₁ hs₁ heq => ?_
    obtain ⟨s₀, hs₀, rfl | ⟨-, rfl⟩⟩ := SalaryStructureRepository.mem_writeEffectiveTo hs₁
    · exact hid s₁ hs₀ heq
    · exact hid s₀ hs₀ heq
  intro employeeId
  rw [filter_snoc, SalaryStructureRepository.filter_writeEffectiveTo fun _ _ => rfl]
  -- a row with the id of the version is the version
  have hsame : ∀ s₁ ∈ rows, s₁.id = props.id → s₁ = s := fun s₁ hs₁ heq =>
    List.inj_on_of_nodup_map h.ids hs₁ hs (heq.trans hprops)
  split_ifs with hmine
  · obtain ⟨init, hrows⟩ := (h.histories employeeId).eq_snoc
      (List.mem_filter.mpr ⟨hs, decide_eq_true (hof.symm.trans hmine)⟩) fun t ht heq => by
        obtain ⟨ht, htof⟩ := List.mem_filter.mp ht
        exact hfree t ht ((of_decide_eq_true htof).trans hmine.symm) (heq.trans hversion.symm)
    have hhistory := h.histories employeeId
    rw [hrows] at hhistory
    have hclosed : SalaryStructureRepository.writeEffectiveTo props (init ++ [s]) =
        init ++ [{ s with effectiveTo := some row.effectiveFrom }] := by
      have hinit : ∀ s₁ ∈ init, s₁.id ≠ props.id := by
        intro s₁ hs₁ heq
        have hnodup := (List.filter_sublist
          (p := fun s : SalaryStructureProps => s.employeeId = employeeId)).map
            SalaryStructureProps.id |>.nodup h.ids
        rw [hrows, List.map_append] at hnodup
        exact List.disjoint_of_nodup_append hnodup (List.mem_map_of_mem hs₁)
          (by simp [heq, hprops])
      have hlast : SalaryStructureRepository.writeEffectiveTo props [s] =
          [{ s with effectiveTo := some row.effectiveFrom }] := by
        simp [SalaryStructureRepository.writeEffectiveTo, hprops, hdate, hfrom]
      rw [← hlast]
      conv_rhs => rw [← SalaryStructureRepository.writeEffectiveTo_of_ne hinit]
      exact List.map_append
    rw [hrows, hclosed]
    exact hhistory.snoc hversion hopen
  · rw [List.append_nil, SalaryStructureRepository.writeEffectiveTo_of_ne]
    · exact h.histories employeeId
    · intro s₁ hs₁ heq
      obtain ⟨hs₁, hmine₁⟩ := List.mem_filter.mp hs₁
      obtain rfl := hsame s₁ hs₁ heq
      exact hmine (hof.trans (of_decide_eq_true hmine₁))

end WellVersioned

/-! ## What a transaction may rely on -/

/-- What identifies a version, and never changes. -/
structure VersionKey where
  id : Id
  employeeId : Id
  version : ℕ

namespace VersionKey

/-- The version is not there, nor one of its id or its number. -/
def Free (k : VersionKey) (keys : List VersionKey) : Prop :=
  ∀ k' ∈ keys, k'.id ≠ k.id ∧ (k'.employeeId = k.employeeId → k'.version ≠ k.version)

/-- The locks under which the version is inserted. -/
def locks (k : VersionKey) : Set PayrollLock :=
  {l | l ∈ [PayrollLock.salaryStructure k.id,
    PayrollLock.salaryStructureVersion k.employeeId k.version]}

/-- Inserting another version leaves this one free, unless it takes its locks. -/
theorem Free.snoc {k k' : VersionKey} {keys : List VersionKey} {held : Set PayrollLock}
    (h : k.Free keys) (hheld : k.locks ⊆ held) (hother : OtherLocks k'.locks held) :
    k.Free (keys ++ [k']) := by
  intro k₁ hk₁
  rcases List.mem_append.mp hk₁ with hk₁ | hk₁
  · exact h k₁ hk₁
  · obtain rfl := List.mem_singleton.mp hk₁
    refine ⟨?_, ?_⟩
    · intro heq
      exact hother (.salaryStructure k.id) (by simp [locks, heq]) (hheld List.mem_cons_self)
    · intro hof heq
      exact hother (.salaryStructureVersion k.employeeId k.version) (by simp [locks, hof, heq])
        (hheld (List.mem_cons_of_mem _ List.mem_cons_self))

end VersionKey

/-- What identifies a version. -/
def SalaryStructureProps.key (s : SalaryStructureProps) : VersionKey :=
  ⟨s.id, s.employeeId, s.version⟩

namespace PayrollStore

/-- The versions there are. -/
def versionKeys (d : PayrollStore) : List VersionKey :=
  d.salaryStructures.map SalaryStructureProps.key

/-- **The protocol**: a commit adds one version, under its locks. -/
def versionProtocol : Protocol PayrollStore PayrollLock where
  inv d := WellVersioned d.salaryStructures
  rely held d d' := ∃ k : VersionKey, OtherLocks k.locks held ∧
    d'.versionKeys = d.versionKeys ++ [k]

variable {d d' : PayrollStore} {env : Env} {held : Set PayrollLock}
  {s : Progress PayrollStore PayrollLock}

/-- Versions stay. -/
theorem stable_mem (k : VersionKey) :
    versionProtocol.Stable held fun d => k ∈ d.versionKeys := by
  rintro d d' - - ⟨k', -, hkeys⟩ hk
  rw [hkeys]
  exact List.mem_append_left _ hk

/-- A version whose locks are held stays free. -/
theorem stable_free {k : VersionKey} (hheld : k.locks ⊆ held) :
    versionProtocol.Stable held fun d => k.Free d.versionKeys := by
  rintro d d' - - ⟨k', hother, hkeys⟩ hfree
  rw [hkeys]
  exact hfree.snoc hheld hother

theorem stable_and {p q : PayrollStore → Prop} (hp : versionProtocol.Stable held p)
    (hq : versionProtocol.Stable held q) : versionProtocol.Stable held fun d => p d ∧ q d :=
  fun d d' h h' hrely hknow => ⟨hp d d' h h' hrely hknow.1, hq d d' h h' hrely hknow.2⟩

theorem map_key_writeEffectiveTo (props : SalaryStructureProps)
    (rows : List SalaryStructureProps) :
    (SalaryStructureRepository.writeEffectiveTo props rows).map SalaryStructureProps.key =
      rows.map SalaryStructureProps.key := by
  simp only [SalaryStructureRepository.writeEffectiveTo, List.map_map]
  refine List.map_congr_left fun s _ => ?_
  simp only [Function.comp_apply]
  split_ifs
  · rfl
  · rfl

/-- What the unique indexes ask. -/
theorem free_iff {k : VersionKey} {rows : List SalaryStructureProps} :
    k.Free (rows.map SalaryStructureProps.key) ↔ ∀ s ∈ rows, s.id ≠ k.id ∧
      (s.employeeId = k.employeeId → s.version ≠ k.version) := by
  simp [VersionKey.Free, SalaryStructureProps.key]

/-- Looking for the version before: what is known is that it is there. -/
theorem follows_findActiveForEmployee {employeeId : Id}
    {Q : Option SalaryStructure → Progress PayrollStore PayrollLock → Prop} (hnone : Q none .start)
    (hsome : ∀ previous : SalaryStructureProps, Q (some (.reconstitute previous))
      ⟨∅, id, fun d => previous.key ∈ d.versionKeys⟩) :
    (SalaryStructureRepository.findActiveForEmployee employeeId).Follows versionProtocol Q
      .start := by
  intro d _ _
  change ∃ know, know d ∧ versionProtocol.Stable ∅ know ∧
    Q ((d.activeStructure employeeId).map .reconstitute) ⟨∅, id, know⟩
  rcases hactive : d.activeStructure employeeId with _ | previous
  · exact ⟨fun _ => True, trivial, versionProtocol.stable_true ∅, hnone⟩
  · exact ⟨_, List.mem_map_of_mem (mem_of_activeStructure hactive).1, stable_mem _,
      hsome previous⟩

/-- Inserting a version: what is known is that it is free. -/
theorem follows_save {version : SalaryStructure} {Q : Unit → Progress PayrollStore PayrollLock → Prop}
    (hpatch : ∀ d, (s.patch d).versionKeys = d.versionKeys)
    (hknow : ∀ held, versionProtocol.Stable held s.know)
    (h : Q () ⟨s.held ∪ version.props.key.locks,
      fun d => (s.patch d).withStructures ((s.patch d).salaryStructures ++
        [SalaryStructureRepository.toRow version.props]),
      fun d => s.know d ∧ version.props.key.Free d.versionKeys⟩) :
    (SalaryStructureRepository.save version).Follows versionProtocol Q s := by
  simp only [SalaryStructureRepository.save]
  apply Tx.follows_exec
  intro d _ hd q hf
  simp only [except_bind_ok, ensure_ok, except_pure_ok] at hf
  obtain ⟨_, hid, _, hversion, _, -, rfl⟩ := hf
  refine ⟨fun d => s.know d ∧ version.props.key.Free d.versionKeys, ⟨hd, ?_⟩, ?_, h⟩
  · rw [← hpatch d, versionKeys, free_iff]
    exact fun s₁ hs₁ => ⟨hid s₁ hs₁, fun hof heq => hversion ⟨s₁, hs₁, hof, heq⟩⟩
  · exact stable_and (hknow _) (stable_free Set.subset_union_right)

/-- Events are not stored with the versions. -/
theorem follows_enqueueEvents {events : List DomainEvent}
    {Q : Unit → Progress PayrollStore PayrollLock → Prop}
    (hstable : versionProtocol.Stable s.held s.know)
    (h : ∀ events, Q () { s with patch := fun d => (s.patch d).withEvents events }) :
    (enqueueEvents events).Follows versionProtocol Q s := by
  simp only [enqueueEvents]
  split_ifs with hnone
  · have hsame : (fun d => (s.patch d).withEvents []) = s.patch := by
      funext d
      simp [withEvents]
    have hnil := h []
    rw [hsame] at hnil
    exact hnil
  · apply Tx.follows_exec
    intro d _ hd q hf
    cases hf
    simp only [List.not_mem_nil, Set.ofPred_false, Set.union_empty]
    exact ⟨s.know, hd, hstable, h events⟩

/-- The commit of a first version. -/
theorem commits_addFirst (row : SalaryStructureProps) (hheld : row.key.locks ⊆ s.held)
    (hknow : ∀ d, s.know d → row.key.Free d.versionKeys)
    (hpatch : ∀ d, (s.patch d).salaryStructures = d.salaryStructures ++ [row])
    (hversion : row.version = 1) (hopen : row.effectiveTo = none) :
    versionProtocol.Commits s := by
  intro d hinv hd
  have hfree := free_iff.mp (hknow d hd)
  refine ⟨?_, ?_⟩
  · change WellVersioned _
    rw [hpatch]
    exact hinv.addFirst (fun s hs => (hfree s hs).1) (fun s hs => (hfree s hs).2) hversion hopen
  · intro others hothers
    refine ⟨row.key, fun l hl => hothers l (hheld hl), ?_⟩
    simp [versionKeys, hpatch]

/-- The commit of a next version: the version before it is there. -/
theorem commits_addNext (props row : SalaryStructureProps) {date : JsDate}
    (hheld : row.key.locks ⊆ s.held)
    (hknow : ∀ d, s.know d → props.key ∈ d.versionKeys ∧ row.key.Free d.versionKeys)
    (hpatch : ∀ d, (s.patch d).salaryStructures =
      SalaryStructureRepository.writeEffectiveTo props d.salaryStructures ++ [row])
    (hdate : props.effectiveTo = some date) (hof : row.employeeId = props.employeeId)
    (hversion : row.version = props.version + 1) (hfrom : row.effectiveFrom = date.day)
    (hopen : row.effectiveTo = none) : versionProtocol.Commits s := by
  intro d hinv hd
  obtain ⟨hmem, hfree⟩ := hknow d hd
  have hfree := free_iff.mp hfree
  refine ⟨?_, ?_⟩
  · change WellVersioned _
    rw [hpatch]
    obtain ⟨s, hs, hkey⟩ := List.mem_map.mp hmem
    simp only [SalaryStructureProps.key, VersionKey.mk.injEq] at hkey
    refine hinv.addNext hs hkey.1.symm hdate (fun s hs => (hfree s hs).1)
      (fun s hs => (hfree s hs).2) (hof.trans hkey.2.1.symm) ?_ hfrom hopen
    rw [hversion, hkey.2.2]
  · intro others hothers
    refine ⟨row.key, fun l hl => hothers l (hheld hl), ?_⟩
    simp only [versionKeys, hpatch, List.map_append, map_key_writeEffectiveTo, List.map_singleton]

/-- **A first version** follows the protocol. -/
theorem createSalaryStructure_follows (env : Env) (cmd : CreateSalaryStructureCommand) :
    (SalaryStructureCommand.program env (.create cmd)).Follows versionProtocol
      (fun _ s => versionProtocol.Commits s) .start := by
  apply Tx.follows_discard
  apply Tx.follows_bind
  refine follows_findActiveForEmployee ?_ fun previous => ?_
  · apply Tx.follows_bind
    refine Tx.follows_require fun _ => ?_
    apply Tx.follows_bind
    refine follows_save (fun _ => rfl) (fun _ => versionProtocol.stable_true _) ?_
    apply Tx.follows_bind
    refine follows_enqueueEvents ?_ fun events => ?_
    · exact stable_and (versionProtocol.stable_true _) (stable_free Set.subset_union_right)
    · exact commits_addFirst (initialVersion env cmd) Set.subset_union_right
        (fun _ hd => hd.2) (fun _ => rfl) rfl rfl
  · apply Tx.follows_bind
    exact Tx.follows_require nofun

/-- **The next version** follows the protocol: nothing is known of the version before it
but that it is there. -/
theorem createSalaryStructureVersion_follows (env : Env)
    (cmd : CreateSalaryStructureVersionCommand) :
    (SalaryStructureCommand.program env (.createVersion cmd)).Follows versionProtocol
      (fun _ s => versionProtocol.Commits s) .start := by
  apply Tx.follows_discard
  apply Tx.follows_bind
  refine follows_findActiveForEmployee ?_ fun previous => ?_
  · refine Tx.follows_bind (Tx.follows_orFail fun _ hnone => ?_)
    simp at hnone
  apply Tx.follows_bind
  refine Tx.follows_orFail fun previous' hprevious => ?_
  obtain ⟨heq, -⟩ := Option.filter_eq_some_iff.mp hprevious
  obtain rfl := Option.some.inj heq
  apply Tx.follows_bind
  apply Tx.follows_bind
  apply Tx.follows_exec
  intro d₁ _ hd₁ q hf
  simp only [except_bind_ok, ensure_ok, except_pure_ok] at hf
  obtain ⟨_, -, rfl⟩ := hf
  refine ⟨fun d => previous.key ∈ d.versionKeys, hd₁, stable_mem _, ?_⟩
  refine follows_save (fun d => map_key_writeEffectiveTo
    { previous with effectiveTo := some cmd.effectiveFrom } d.salaryStructures)
    (fun _ => stable_mem _) ?_
  apply Tx.follows_bind
  refine follows_enqueueEvents ?_ fun events => ?_
  · exact stable_and (stable_mem _) (stable_free Set.subset_union_right)
  · exact commits_addNext { previous with effectiveTo := some cmd.effectiveFrom }
      (nextVersion env previous cmd) Set.subset_union_right (fun _ hd => hd) (fun _ => rfl) rfl rfl rfl rfl rfl

theorem SalaryStructureCommand.follows (env : Env) (cmd : SalaryStructureCommand) :
    (cmd.program env).Follows versionProtocol (fun _ s => versionProtocol.Commits s) .start := by
  cases cmd with
  | create cmd => exact createSalaryStructure_follows env cmd
  | createVersion cmd => exact createSalaryStructureVersion_follows env cmd

/-! ## Every run, and every interleaving -/

/-- One request keeps the histories. -/
theorem wellVersioned_of_run {r : Request} (hwf : d.store.WellFormed)
    (hfresh : d.store.Fresh r.env.uuid) (h : WellVersioned d.salaryStructures)
    (hrun : d.run r = .ok d') : WellVersioned d'.salaryStructures := by
  obtain ⟨env, command⟩ := r
  cases command with
  | employee cmd =>
    obtain ⟨_, _, rfl, -⟩ := EmployeeCommand.frame (run_employee_ok.mp hrun)
    exact h
  | salaryStructure cmd =>
    exact (SalaryStructureCommand.follows env cmd).solo h trivial (run_salaryStructure_ok.mp hrun)
  | other command =>
    rw [(otherStep_of_run hwf hfresh hrun).salaryStructures]
    exact h

/-- **In every reachable store** the versions of every employee form a history. -/
theorem wellVersioned_of_reaches {administration : Administration} {users : List Id}
    {ok : PayrollStore → Request → Prop} {rs : List Request}
    (hr : Reaches next ok (initial administration users) rs d) :
    d.store.WellFormed ∧ WellVersioned d.salaryStructures := by
  refine hr.invariant (P := fun d => d.store.WellFormed ∧ WellVersioned d.salaryStructures)
    ⟨Store.wellFormed_initial _, .nil⟩ ?_
  rintro d r d' ⟨hwf, hversioned⟩ - hn
  obtain ⟨hfresh, rfl | hrun⟩ := next_cases hn
  · exact ⟨hwf, hversioned⟩
  · exact ⟨wellFormed_of_run hwf hfresh.2.2 hrun,
      wellVersioned_of_run hwf hfresh.2.2 hversioned hrun⟩

/-- **Any interleaving**: from any reachable store, transactions that create first and next
versions leave every employee a history. -/
theorem versions_interleaved {administration : Administration} {users : List Id}
    {rs : List Request} {d₀ : PayrollStore}
    (hd : Reaches next (fun _ _ => True) (initial administration users) rs d₀) (env : ℕ → Env)
    (command : ℕ → SalaryStructureCommand) {ok : System PayrollStore PayrollLock Failure Unit →
      Turn → Prop} {turns : List Turn} {σ : System PayrollStore PayrollLock Failure Unit}
    (hr : Reaches System.next ok
      (System.init d₀ fun i => (command i).program (env i)) turns σ) (employeeId : Id) :
    VersionHistory (σ.db.structuresOf employeeId) :=
  (System.follows_invariant (wellVersioned_of_reaches hd).2
    (fun i => SalaryStructureCommand.follows (env i) (command i)) hr).histories employeeId

end PayrollStore

namespace Sample

/-- The organization 1 makes the next version for 40, in effect from noon. -/
def nextVersion : SalaryStructureCommand :=
  .createVersion ⟨1, 40, noon, [⟨.allowance, "Basic", ⟨600000, .NGN⟩⟩]⟩

/-- Two transactions read the version there is; one commits, then the other goes on. -/
def racingVersions : List Turn :=
  [.step 0, .step 1] ++ List.replicate 4 (.step 0) ++ List.replicate 2 (.step 1)

end Sample

namespace PayrollStore

/-- Two next versions at once: one of them is rolled back. -/
theorem versions_interleaved_sample : ∃ d₀ σ,
    Reaches next (fun _ _ => True) (initial Sample.administration [])
      [Sample.hire, Sample.firstVersion 41 1] d₀ ∧
    Reaches System.next (fun _ _ => True) (System.init d₀ fun i =>
      Sample.nextVersion.program ⟨Sample.noon, 301 + i, 0⟩) Sample.racingVersions σ ∧
    σ.log = [0] ∧ VersionHistory (σ.db.structuresOf 40) := by
  have hrun : ((runLabels next (initial Sample.administration [])
      [Sample.hire, Sample.firstVersion 41 1]).map fun d₀ =>
        (runLabels System.next (System.init d₀ fun i =>
          Sample.nextVersion.program ⟨Sample.noon, 301 + i, 0⟩) Sample.racingVersions).map
            System.log) = some (some [0]) := by
    decide +kernel
  obtain ⟨d₀, hd₀, hlog⟩ := Option.map_eq_some_iff.mp hrun
  obtain ⟨σ, hσ, hlog⟩ := Option.map_eq_some_iff.mp hlog
  have hd := reaches_of_runLabels hd₀
  have hr := reaches_of_runLabels hσ
  exact ⟨d₀, σ, hd, hr, hlog,
    versions_interleaved hd _ (fun _ => Sample.nextVersion) hr 40⟩

end PayrollStore

end RatelPlatform
