import Mathlib.Data.List.Basic
import Mathlib.Data.List.Nodup
import Mathlib.Data.Set.Finite.Basic
import Mathlib.Data.Finset.Insert

/-!
# Columns with names

Names over the cells of rows. A name may stand over several columns: what it refers to is the
first of them, so reading a row by a name is reading the cell of one column
(`lookup_zip_eq`).

Names can be told apart by giving every later occurrence of a name another one, made of the
name and a number (`Distinguished`). This changes nothing for those who read by the old names
(`Distinguished.lookup_zip`), and it is always possible (`exists_distinguished`).

Columns can also be relabelled, one column under several names if need be.
-/

namespace RatelPlatform

universe u v

variable {α : Type u} {β : Type v}

/-! ## Reading by a name -/

theorem map_fst_zip_sublist (names : List α) (row : List β) :
    ((names.zip row).map Prod.fst).Sublist names := by
  induction names generalizing row with
  | nil => exact .slnil
  | cons name names ih =>
    rcases row with _ | ⟨cell, row⟩
    · exact List.nil_sublist _
    · exact (ih row).cons_cons name

/-- The cell in the first column that qualifies. -/
theorem find_zip_eq (p : α → Bool) (names : List α) (row : List β) :
    ((names.zip row).find? fun cell => p cell.1).map Prod.snd =
      (names.findIdx? p).bind (row[·]?) := by
  induction names generalizing row with
  | nil => rfl
  | cons name names ih =>
    rcases row with _ | ⟨cell, row⟩
    · simp
    · rw [List.zip_cons_cons, List.find?_cons, List.findIdx?_cons]
      rcases hp : p name
      · rw [ih]
        rcases names.findIdx? p with _ | i
        · rfl
        · rfl
      · rfl

/-- Which column comes first depends on the names there are. -/
theorem findIdx?_congr {p q : α → Prop} [DecidablePred p] [DecidablePred q] {names : List α}
    (h : ∀ x ∈ names, p x ↔ q x) :
    (names.findIdx? fun x => p x) = names.findIdx? fun x => q x := by
  induction names with
  | nil => rfl
  | cons x names ih =>
    rw [List.forall_mem_cons] at h
    rw [List.findIdx?_cons, List.findIdx?_cons, ih h.2, decide_eq_decide.mpr h.1]

section

variable [DecidableEq α]

/-- A name refers to the first column it stands over. -/
theorem lookup_eq_find (x : α) (cells : List (α × β)) :
    cells.lookup x = (cells.find? fun cell => decide (cell.1 = x)).map Prod.snd := by
  induction cells with
  | nil => rfl
  | cons cell cells ih =>
    rw [List.lookup_cons, List.find?_cons, ih]
    by_cases hx : cell.1 = x
    · simp [hx]
    · have hne : (x == cell.1) = false := beq_false_of_ne (Ne.symm hx)
      simp [hx, hne]

theorem lookup_zip_eq (x : α) (names : List α) (row : List β) :
    (names.zip row).lookup x = (names.findIdx? fun name => decide (name = x)).bind (row[·]?) := by
  rw [lookup_eq_find, find_zip_eq fun name => decide (name = x)]

theorem lookup_zip_of_not_mem {x : α} {names : List α} (hx : x ∉ names) (row : List β) :
    (names.zip row).lookup x = none := by
  rw [lookup_zip_eq, List.findIdx?_eq_none_iff.mpr]
  · rfl
  · exact fun y hy => decide_eq_false fun heq => hx (heq ▸ hy)

theorem exists_lookup_zip {x : α} {names : List α} (hx : x ∈ names) {row : List β}
    (hrow : names.length = row.length) : ∃ cell, (names.zip row).lookup x = some cell := by
  have hcolumn : (names.findIdx? fun name => decide (name = x)).isSome := by
    simpa using hx
  obtain ⟨i, hi⟩ := Option.isSome_iff_exists.mp hcolumn
  have hlt : i < row.length := hrow ▸ (List.findIdx?_eq_some_iff_getElem.mp hi).1
  exact ⟨row[i], by rw [lookup_zip_eq, hi, Option.bind_some, List.getElem?_eq_getElem hlt]⟩

end

/-- The last cell of a row with one column more. -/
theorem exists_concat_of_length {names : List α} {x : α} {row : List β}
    (hrow : row.length = (names ++ [x]).length) :
    ∃ init last, row = init ++ [last] ∧ init.length = names.length := by
  rcases List.eq_nil_or_concat row with rfl | ⟨init, last, rfl⟩
  · simp at hrow
  · exact ⟨init, last, List.concat_eq_append, by simpa using hrow⟩

/-- Two columns that agree in every row are one. -/
theorem column_eq_of_forall [Nontrivial β] {n : ℕ} {i j : Option ℕ} (hi : ∀ k ∈ i, k < n)
    (hj : ∀ k ∈ j, k < n)
    (h : ∀ row : List β, row.length = n → i.bind (row[·]?) = j.bind (row[·]?)) : i = j := by
  obtain ⟨a, b, hab⟩ := exists_pair_ne β
  -- a row that marks one of the columns
  have hmark : ∀ k < n, ∃ row : List β, row.length = n ∧ row[k]? = some a ∧
      ∀ l ≠ k, row[l]? ≠ some a := by
    intro k hk
    refine ⟨(List.range n).map fun l => if l = k then a else b, by simp, by simp [hk], ?_⟩
    intro l hl
    by_cases hln : l < n
    · simp [hln, hl, hab.symm]
    · simp [hln]
  rcases i with _ | i
  · rcases j with _ | j
    · rfl
    · obtain ⟨row, hlength, hrow, -⟩ := hmark j (hj j rfl)
      have heq := h row hlength
      simp [hrow] at heq
  · obtain ⟨row, hlength, hrow, hother⟩ := hmark i (hi i rfl)
    have heq := h row hlength
    rcases j with _ | j
    · simp [hrow] at heq
    · by_contra hne
      refine hother j (fun hji => hne (by rw [hji])) ?_
      simpa [hrow] using heq.symm

/-! ## Telling names apart -/

variable {again : α → ℕ → α}

/-- The second list has the names of the first, but for those that occurred before: they get a
number. -/
inductive Distinguished (again : α → ℕ → α) : List α → List α → Prop
  | nil : Distinguished again [] []
  /-- the first column of its name -/
  | first {names fields : List α} {x : α} (h : Distinguished again names fields)
      (hx : x ∉ names) : Distinguished again (names ++ [x]) (fields ++ [x])
  /-- one more column of its name -/
  | later {names fields : List α} {x : α} (h : Distinguished again names fields)
      (hx : x ∈ names) (n : ℕ) : Distinguished again (names ++ [x]) (fields ++ [again x n])

namespace Distinguished

variable {names fields : List α}

theorem length_eq (h : Distinguished again names fields) : fields.length = names.length := by
  induction h with
  | nil => rfl
  | first _ _ ih => simp [ih]
  | later _ _ _ ih => simp [ih]

/-- Different names stay as they are. -/
theorem of_nodup (hnames : names.Nodup) : Distinguished again names names := by
  induction names using List.reverseRecOn with
  | nil => exact .nil
  | append_singleton names x ih =>
    exact (ih hnames.of_append_left).first fun hx =>
      List.disjoint_of_nodup_append hnames hx List.mem_cons_self

/-- No name is lost. -/
theorem subset (h : Distinguished again names fields) : names ⊆ fields := by
  induction h with
  | nil => exact List.Subset.refl _
  | first _ _ ih =>
    intro y hy
    rcases List.mem_append.mp hy with hy | hy
    · exact List.mem_append_left _ (ih hy)
    · exact List.mem_append_right _ hy
  | later _ hx _ ih =>
    intro y hy
    rcases List.mem_append.mp hy with hy | hy
    · exact List.mem_append_left _ (ih hy)
    · exact List.mem_append_left _ (ih (List.mem_singleton.mp hy ▸ hx))

/-- What is not one of the names is one with a number. -/
theorem mem (h : Distinguished again names fields) {y : α} (hy : y ∈ fields) :
    y ∈ names ∨ ∃ x ∈ names, ∃ n, y = again x n := by
  induction h with
  | nil => exact .inl hy
  | @first names fields x _ _ ih =>
    rcases List.mem_append.mp hy with hy | hy
    · rcases ih hy with hold | ⟨z, hz, hnew⟩
      · exact .inl (List.mem_append_left _ hold)
      · exact .inr ⟨z, List.mem_append_left _ hz, hnew⟩
    · exact .inl (List.mem_append_right _ hy)
  | @later names fields x _ hx n ih =>
    rcases List.mem_append.mp hy with hy | hy
    · rcases ih hy with hold | ⟨z, hz, hnew⟩
      · exact .inl (List.mem_append_left _ hold)
      · exact .inr ⟨z, List.mem_append_left _ hz, hnew⟩
    · exact .inr ⟨x, List.mem_append_left _ hx, n, List.mem_singleton.mp hy⟩

variable [DecidableEq α] in
/-- **Reading by the old names** gives the same cells. -/
theorem lookup_zip (h : Distinguished again names fields) (hfields : fields.Nodup) {x : α}
    (hx : x ∈ names ∨ ∀ y n, x ≠ again y n) {row : List β} (hrow : row.length = names.length) :
    (fields.zip row).lookup x = (names.zip row).lookup x := by
  induction h generalizing row with
  | nil => rfl
  | @first names fields y h hy ih =>
    obtain ⟨row, cell, rfl, hlength⟩ := exists_concat_of_length hrow
    rw [List.zip_append (h.length_eq.trans hlength.symm), List.zip_append hlength.symm,
      List.lookup_append, List.lookup_append]
    congr 1
    -- what is read is one of the earlier names, or not there yet in either list
    by_cases hx' : x ∈ names ∨ ∀ y n, x ≠ again y n
    · exact ih hfields.of_append_left hx' hlength
    · obtain ⟨hold, hagain⟩ := not_or.mp hx'
      obtain rfl : x = y := by
        rcases hx with hx | hx
        · exact List.mem_singleton.mp ((List.mem_append.mp hx).resolve_left hold)
        · exact absurd hx hagain
      have hnot : x ∉ fields := fun hmem =>
        List.disjoint_of_nodup_append hfields hmem List.mem_cons_self
      rw [lookup_zip_of_not_mem hnot, lookup_zip_of_not_mem hold]
  | @later names fields y h hy n ih =>
    obtain ⟨row, cell, rfl, hlength⟩ := exists_concat_of_length hrow
    have hx' : x ∈ names ∨ ∀ y n, x ≠ again y n := by
      refine hx.imp_left fun hx => (List.mem_append.mp hx).elim id fun hx => ?_
      exact List.mem_singleton.mp hx ▸ hy
    rw [List.zip_append (h.length_eq.trans hlength.symm), List.zip_append hlength.symm,
      List.lookup_append, List.lookup_append, ih hfields.of_append_left hx' hlength]
    by_cases hmem : x ∈ names
    · -- the earlier column of the name decides
      obtain ⟨value, hvalue⟩ := exists_lookup_zip hmem hlength.symm
      rw [hvalue]
      rfl
    · have hne : x ≠ again y n := (hx'.resolve_left hmem) y n
      have hne' : x ≠ y := fun heq => hmem (heq ▸ hy)
      simp [List.lookup_cons, beq_false_of_ne hne, beq_false_of_ne hne']

end Distinguished

variable [DecidableEq α] in
/-- There are enough numbers to tell any names apart, and to avoid some others. -/
theorem exists_distinguished (hagain : ∀ x, Function.Injective (again x)) (names : List α)
    (avoid : Finset α) : ∃ fields, Distinguished again names fields ∧ fields.Nodup ∧
      ∀ y ∈ fields, y ∉ names → y ∉ avoid := by
  induction names using List.reverseRecOn generalizing avoid with
  | nil => exact ⟨[], .nil, List.nodup_nil, fun _ hy => by cases hy⟩
  | append_singleton names x ih =>
    by_cases hx : x ∈ names
    · obtain ⟨fields, hfields, hnodup, havoid⟩ := ih avoid
      obtain ⟨-, ⟨n, rfl⟩, hn⟩ := (Set.infinite_range_of_injective (hagain x)).exists_notMem_finset
        (fields.toFinset ∪ avoid)
      simp only [Finset.mem_union, List.mem_toFinset, not_or] at hn
      refine ⟨_, hfields.later hx n, ?_, ?_⟩
      · exact List.nodup_append.mpr ⟨hnodup, List.nodup_singleton _, fun y hy z hz heq =>
          hn.1 (List.mem_singleton.mp hz ▸ heq ▸ hy)⟩
      · intro y hy hnot
        rcases List.mem_append.mp hy with hy | hy
        · exact havoid y hy fun hmem => hnot (List.mem_append_left _ hmem)
        · exact List.mem_singleton.mp hy ▸ hn.2
    · -- the new name is to be avoided so far
      obtain ⟨fields, hfields, hnodup, havoid⟩ := ih (insert x avoid)
      refine ⟨_, hfields.first hx, ?_, ?_⟩
      · refine List.nodup_append.mpr ⟨hnodup, List.nodup_singleton _, fun y hy z hz heq => ?_⟩
        obtain rfl := heq.trans (List.mem_singleton.mp hz)
        exact havoid y hy hx (Finset.mem_insert_self _ _)
      · intro y hy hnot
        rcases List.mem_append.mp hy with hy | hy
        · exact fun hmem => havoid y hy (fun hin => hnot (List.mem_append_left _ hin))
            (Finset.mem_insert_of_mem hmem)
        · exact absurd (List.mem_append_right _ hy) hnot

/-! ## Relabelling -/

variable {γ : Type*}

/-- The cells of a row once each column stands under its labels: one cell for each label. -/
def relabelRow (labels : α → List γ) (names : List α) (row : List β) : List β :=
  (names.zip row).flatMap fun cell => List.replicate (labels cell.1).length cell.2

theorem zip_relabelRow (labels : α → List γ) (names : List α) (row : List β) :
    (names.flatMap labels).zip (relabelRow labels names row) =
      (names.zip row).flatMap fun cell => (labels cell.1).map (·, cell.2) := by
  induction names generalizing row with
  | nil => rfl
  | cons name names ih =>
    rcases row with _ | ⟨cell, row⟩
    · simp [relabelRow]
    · have hcells : (labels name).zip (List.replicate (labels name).length cell) =
          (labels name).map (·, cell) := by
        induction labels name with
        | nil => rfl
        | cons label labels ih => simp [List.replicate_succ, ih]
      rw [List.flatMap_cons, relabelRow, List.zip_cons_cons, List.flatMap_cons, List.flatMap_cons,
        List.zip_append (by simp), hcells]
      exact congrArg _ (ih row)

variable [DecidableEq γ] in
/-- **A label** refers to the first column that has it. -/
theorem lookup_relabelRow (labels : α → List γ) (names : List α) (row : List β) (c : γ) :
    ((names.flatMap labels).zip (relabelRow labels names row)).lookup c =
      (names.findIdx? fun name => decide (c ∈ labels name)).bind (row[·]?) := by
  have hone : ∀ (xs : List γ) (cell : β),
      (xs.map (·, cell)).lookup c = if c ∈ xs then some cell else none := by
    intro xs cell
    induction xs with
    | nil => rfl
    | cons x xs ih =>
      by_cases hx : c = x
      · simp [hx]
      · simp [List.lookup_cons, beq_false_of_ne hx, hx, ih]
  rw [zip_relabelRow, ← find_zip_eq fun name => decide (c ∈ labels name)]
  induction names.zip row with
  | nil => rfl
  | cons cell cells ih =>
    rw [List.flatMap_cons, List.lookup_append, hone, List.find?_cons, ih]
    by_cases hc : c ∈ labels cell.1
    · simp [hc]
    · simp [hc]

theorem length_relabelRow (labels : α → List γ) {names : List α} {row : List β}
    (hrow : row.length = names.length) :
    (relabelRow labels names row).length = (names.flatMap labels).length := by
  induction names generalizing row with
  | nil => rfl
  | cons name names ih =>
    rcases row with _ | ⟨cell, row⟩
    · simp at hrow
    · simp only [relabelRow, List.zip_cons_cons, List.flatMap_cons, List.length_append,
        List.length_replicate]
      exact congrArg _ (ih (Nat.succ.inj hrow))

end RatelPlatform
