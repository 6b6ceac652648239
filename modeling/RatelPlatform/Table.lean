import Mathlib.Data.Finmap
import Mathlib.Data.List.Sort
import Mathlib.Algebra.BigOperators.Group.Finset.Basic
import Mathlib.Algebra.Order.Group.Int

/-!
# Tables: keyed rows without an order

A database table is a finite map from its primary key to its rows. Mathlib's
`Finmap` already is that map; what is added here is what queries need on top of
it: reading a key back after a write as one equation, and aggregating a column
over every row (`SELECT sum(…)`) with the law a single insert obeys.

A table has no row order of its own, as in SQL: a query that needs one has to
say which.
-/

namespace RatelPlatform

universe u v

/-- A table: rows of type `ρ` under a primary key of type `κ`. -/
abbrev Table (κ : Type u) (ρ : Type v) : Type (max u v) := Finmap fun _ : κ => ρ

namespace Table

variable {κ : Type u} {ρ : Type v} [DecidableEq κ]

/-- Reading any key back after a write. -/
theorem lookup_insert_ite (t : Table κ ρ) (k k' : κ) (row : ρ) :
    (t.insert k row).lookup k' = if k' = k then some row else t.lookup k' := by
  by_cases h : k' = k
  · rw [if_pos h, h, Finmap.lookup_insert]
  · rw [if_neg h, Finmap.lookup_insert_of_ne t h]

/-- What is read after a write was written, or was there under another key. -/
theorem lookup_insert_cases {t : Table κ ρ} {k k' : κ} {row r : ρ}
    (h : (t.insert k row).lookup k' = some r) :
    (k' = k ∧ row = r) ∨ (k' ≠ k ∧ t.lookup k' = some r) := by
  rw [lookup_insert_ite] at h
  split_ifs at h with hk
  · exact .inl ⟨hk, Option.some.inj h⟩
  · exact .inr ⟨hk, h⟩

/-- Reading any key back after a deletion. -/
theorem lookup_erase_ite (t : Table κ ρ) (k k' : κ) :
    (t.erase k).lookup k' = if k' = k then none else t.lookup k' := by
  by_cases h : k' = k
  · rw [if_pos h, h, Finmap.lookup_erase]
  · rw [if_neg h, Finmap.lookup_erase_ne h]

theorem mem_keys_iff (t : Table κ ρ) (k : κ) : k ∈ t.keys ↔ ∃ row, t.lookup k = some row := by
  rw [Finmap.mem_keys, Finmap.mem_iff]

theorem keys_insert (t : Table κ ρ) (k : κ) (row : ρ) :
    (t.insert k row).keys = insert k t.keys := by
  ext k'
  rw [Finmap.mem_keys, Finmap.mem_insert, Finset.mem_insert, Finmap.mem_keys]

/-- `UPDATE … WHERE key = k`: changes the row there is, if any. -/
def update (t : Table κ ρ) (k : κ) (f : ρ → ρ) : Table κ ρ :=
  match t.lookup k with
  | some row => t.insert k (f row)
  | none => t

theorem lookup_update (t : Table κ ρ) (k k' : κ) (f : ρ → ρ) :
    (t.update k f).lookup k' = if k' = k then (t.lookup k).map f else t.lookup k' := by
  simp only [update]
  rcases h : t.lookup k with _ | row
  · split_ifs with hk
    · rw [hk, h]
      rfl
    · rfl
  · exact lookup_insert_ite t k k' (f row)

theorem mem_update (t : Table κ ρ) (k k' : κ) (f : ρ → ρ) : k' ∈ t.update k f ↔ k' ∈ t := by
  simp only [Finmap.mem_iff, lookup_update]
  split_ifs with h
  · subst h
    simp
  · rfl

theorem update_of_lookup {t : Table κ ρ} {k : κ} {row : ρ} (h : t.lookup k = some row)
    (f : ρ → ρ) : t.update k f = t.insert k (f row) := by
  simp only [update]
  rw [h]

/-! ## Aggregates -/

/-- `SELECT sum(column row)` over the whole table. -/
def sum (t : Table κ ρ) (column : ρ → ℤ) : ℤ :=
  ∑ k ∈ t.keys, ((t.lookup k).map column).getD 0

@[simp] theorem sum_empty (column : ρ → ℤ) : sum (∅ : Table κ ρ) column = 0 := rfl

/-- A new row adds its own column. -/
theorem sum_insert_new {t : Table κ ρ} {k : κ} {row : ρ} (column : ρ → ℤ)
    (h : t.lookup k = none) : sum (t.insert k row) column = column row + sum t column := by
  have hk : k ∉ t.keys := by
    rw [mem_keys_iff, h]
    simp
  unfold sum
  rw [keys_insert, Finset.sum_insert hk, Finmap.lookup_insert]
  refine congrArg₂ (· + ·) rfl (Finset.sum_congr rfl fun k' hk' => ?_)
  have hne : k' ≠ k := fun hh => hk (hh ▸ hk')
  rw [Finmap.lookup_insert_of_ne t hne]

/-- Overwriting a row with one of the same column leaves the aggregate alone. -/
theorem sum_insert_same {t : Table κ ρ} {k : κ} {row row' : ρ} (column : ρ → ℤ)
    (h : t.lookup k = some row) (hc : column row' = column row) :
    sum (t.insert k row') column = sum t column := by
  have hk : k ∈ t.keys := (mem_keys_iff t k).mpr ⟨row, h⟩
  unfold sum
  rw [keys_insert, Finset.insert_eq_of_mem hk]
  refine Finset.sum_congr rfl fun k' _ => ?_
  rw [lookup_insert_ite]
  split_ifs with hk'
  · rw [hk', h]
    simp [hc]
  · rfl

/-! ## Rows in order -/

section

variable {κ : Type u} {ρ : Type v} [LinearOrder κ]

/-- The keys of a table in order. -/
def sortedKeys (t : Table κ ρ) : List κ :=
  Quot.liftOn t.keys.val (fun l => l.insertionSort (· ≤ ·)) fun l l' h => by
    have hperm := (List.perm_insertionSort (· ≤ ·) l).trans
      (h.trans (List.perm_insertionSort (· ≤ ·) l').symm)
    exact hperm.eq_of_pairwise' (List.pairwise_insertionSort _ _) (List.pairwise_insertionSort _ _)

/-- `SELECT *`, by key. -/
def rows (t : Table κ ρ) : List (κ × ρ) :=
  t.sortedKeys.filterMap fun k => (t.lookup k).map (Prod.mk k)

theorem mem_sortedKeys (t : Table κ ρ) (k : κ) : k ∈ t.sortedKeys ↔ k ∈ t.keys := by
  unfold sortedKeys
  rw [← Finset.mem_val]
  induction t.keys.val using Quot.inductionOn with
  | h l => exact List.mem_insertionSort _

theorem mem_rows_iff (t : Table κ ρ) (k : κ) (row : ρ) :
    (k, row) ∈ t.rows ↔ t.lookup k = some row := by
  rw [rows, List.mem_filterMap]
  refine ⟨?_, ?_⟩
  · rintro ⟨k', -, h⟩
    obtain ⟨row', hrow', h⟩ := Option.map_eq_some_iff.mp h
    cases h
    exact hrow'
  · intro h
    refine ⟨k, ?_, ?_⟩
    · rw [mem_sortedKeys, Finmap.mem_keys]
      exact Finmap.mem_of_lookup_eq_some h
    · rw [h]
      rfl

/-- Every row is there once. -/
theorem nodup_rows (t : Table κ ρ) : t.rows.Nodup := by
  have hkeys : t.sortedKeys.Nodup := by
    unfold sortedKeys
    have hnodup := t.keys.nodup
    revert hnodup
    induction t.keys.val using Quot.inductionOn with
    | h l => exact fun hnodup => (List.perm_insertionSort _ l).nodup_iff.mpr hnodup
  refine hkeys.filterMap fun k k' e he he' => ?_
  obtain ⟨_, -, rfl⟩ := Option.map_eq_some_iff.mp he
  obtain ⟨_, -, heq⟩ := Option.map_eq_some_iff.mp he'
  exact (congrArg Prod.fst heq).symm

end

end Table

end RatelPlatform
