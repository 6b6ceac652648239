import RatelPlatform.ExpenseListing
import RatelPlatform.Pagination

/-!
# Pages of a table

The lists of the platform are cut from the rows of a table that meet a condition, by date of
creation and id, both descending. The condition behind a cursor is lexicographic, so that rows
of one instant are told apart by their ids: the rows behind the cursor of a row are those that
follow it (`newestRows_behind`).
-/

namespace RatelPlatform

section

variable {ρ : Type} (createdAt : ρ → JsDate)

/-- `ORDER BY created_at DESC, id DESC` -/
def NewestBy (a b : Id × ρ) : Prop :=
  (createdAt b.2).ms < (createdAt a.2).ms ∨ createdAt b.2 = createdAt a.2 ∧ b.1 ≤ a.1

instance : DecidableRel (NewestBy createdAt) := fun _ _ => inferInstanceAs (Decidable (_ ∨ _ ∧ _))

/-- `createdAt < … OR createdAt = … AND id < …` -/
def BehindCursor (c : Cursor) (r : Id × ρ) : Prop :=
  (createdAt r.2).ms < c.createdAt.ms ∨ createdAt r.2 = c.createdAt ∧ r.1 < c.id

instance (c : Cursor) (r : Id × ρ) : Decidable (BehindCursor createdAt c r) :=
  inferInstanceAs (Decidable (_ ∨ _ ∧ _))

/-- The cursor of a row. -/
def rowCursor (r : Id × ρ) : Cursor := ⟨createdAt r.2, r.1⟩

/-- The rows that meet a condition, newest first. -/
def newestRows (t : Table Id ρ) (p : Id × ρ → Prop) [DecidablePred p] : List (Id × ρ) :=
  ((Table.rows t).filter fun r => p r).insertionSort (NewestBy createdAt)

/-- `take: limit + 1`: one row more than asked for tells whether there is a next page. -/
def newestPage (t : Table Id ρ) (p : Id × ρ → Prop) [DecidablePred p] (limit : ℕ) :
    List (Id × ρ) × Option Cursor :=
  let rows := (newestRows createdAt t p).take (limit + 1)
  let hasMore := decide (limit < rows.length)
  let pageRows := if hasMore then rows.take limit else rows
  (pageRows, if hasMore then pageRows.getLast?.map (rowCursor createdAt) else none)

end

variable {ρ : Type} {createdAt : ρ → JsDate} {t : Table Id ρ} {p : Id × ρ → Prop}
  [DecidablePred p]

theorem newestBy_descending :
    Descending (fun r : Id × ρ => (createdAt r.2).ms) Prod.fst (NewestBy createdAt) :=
  fun _ _ => or_congr_right (and_congr_left' ⟨congrArg JsDate.ms, JsDate.eq_of_ms⟩)

instance : IsTrans (Id × ρ) (NewestBy createdAt) := newestBy_descending.isTrans

instance : Std.Total (NewestBy createdAt) := newestBy_descending.total

theorem mem_newestRows {r : Id × ρ} :
    r ∈ newestRows createdAt t p ↔ t.lookup r.1 = some r.2 ∧ p r := by
  rw [newestRows, List.mem_insertionSort, List.mem_filter, decide_eq_true_eq,
    ← Table.mem_rows_iff]

theorem nodup_newestRows : (newestRows createdAt t p).Nodup :=
  (List.perm_insertionSort _ _).nodup_iff.mpr ((Table.nodup_rows t).filter _)

/-- The page is cut from the rows. -/
theorem newestPage_eq_cutPage (limit : ℕ) :
    newestPage createdAt t p limit = cutPage (rowCursor createdAt) limit (newestRows createdAt t p) := by
  simp only [newestPage, cutPage]
  by_cases hmore : limit < (newestRows createdAt t p).length
  · have htake : limit < ((newestRows createdAt t p).take (limit + 1)).length := by
      rw [List.length_take]
      omega
    rw [decide_eq_true htake, if_pos rfl, if_pos rfl, if_pos hmore, List.take_take,
      Nat.min_eq_left (Nat.le_succ _)]
  · have htake : ¬ limit < ((newestRows createdAt t p).take (limit + 1)).length := by
      rw [List.length_take]
      omega
    rw [decide_eq_false htake, if_neg Bool.false_ne_true, if_neg Bool.false_ne_true, if_neg hmore,
      List.take_of_length_le (by omega), List.take_of_length_le (by omega)]

/-! ## Rows behind a cursor -/

/-- Of two rows of the table, the one behind the other is behind its cursor. -/
theorem behindCursor_iff_newestBy {a b : Id × ρ} (hne : a.1 ≠ b.1) :
    BehindCursor createdAt (rowCursor createdAt a) b ↔ NewestBy createdAt a b := by
  refine or_congr_right (and_congr_right fun _ => ?_)
  exact ⟨le_of_lt, fun h => lt_of_le_of_ne h hne.symm⟩

theorem not_behindCursor_of_newestBy {a b : Id × ρ} (h : NewestBy createdAt b a) :
    ¬ BehindCursor createdAt (rowCursor createdAt a) b := by
  rintro (hdate | ⟨hdate, hid⟩) <;> simp only [rowCursor] at hdate <;>
    rcases (newestBy_descending b a).mp h with hdate' | ⟨hdate', hid'⟩
  · exact absurd hdate hdate'.not_gt
  · exact absurd hdate' hdate.ne'
  · exact absurd (congrArg JsDate.ms hdate) hdate'.ne'
  · exact absurd hid' (not_le.mpr hid)

/-- Rows of the table that are newest first both ways are one. -/
theorem eq_of_newestBy {a b : Id × ρ} (ha : t.lookup a.1 = some a.2) (hb : t.lookup b.1 = some b.2)
    (hab : NewestBy createdAt a b) (hba : NewestBy createdAt b a) : a = b := by
  obtain ⟨-, hid⟩ := newestBy_descending.eq hab hba
  rw [hid] at ha
  exact Prod.ext hid (Option.some.inj (ha.symm.trans hb))

/-- **Behind the cursor of a row stand the rows that follow it.** -/
theorem newestRows_behind {q : Id × ρ → Prop} [DecidablePred q] {before after : List (Id × ρ)}
    {r : Id × ρ} (hq : ∀ x, q x ↔ p x ∧ BehindCursor createdAt (rowCursor createdAt r) x)
    (hrows : newestRows createdAt t p = before ++ r :: after) :
    newestRows createdAt t q = after := by
  have hsorted : (newestRows createdAt t p).Pairwise (NewestBy createdAt) :=
    List.pairwise_insertionSort _ _
  have hnodup : (newestRows createdAt t p).Nodup := nodup_newestRows
  have hlookup : ∀ x ∈ newestRows createdAt t p, t.lookup x.1 = some x.2 := fun x hx =>
    (mem_newestRows.mp hx).1
  rw [hrows] at hsorted hnodup hlookup
  obtain ⟨-, hafter, hbefore⟩ := List.pairwise_append.mp hsorted
  obtain ⟨hr, hafter⟩ := List.pairwise_cons.mp hafter
  obtain ⟨-, hnodup, -⟩ := List.nodup_append.mp hnodup
  obtain ⟨hnot, hnodup⟩ := List.nodup_cons.mp hnodup
  have hmem : ∀ x, x ∈ newestRows createdAt t q ↔ x ∈ after := by
    intro x
    rw [mem_newestRows, hq, ← and_assoc, ← @mem_newestRows ρ createdAt, hrows]
    refine ⟨?_, ?_⟩
    · rintro ⟨hx, hbehind⟩
      rcases List.mem_append.mp hx with hx | hx
      · exact absurd hbehind (not_behindCursor_of_newestBy (hbefore x hx r List.mem_cons_self))
      · rcases List.mem_cons.mp hx with rfl | hx
        · exact absurd hbehind (not_behindCursor_of_newestBy (.inr ⟨rfl, le_rfl⟩))
        · exact hx
    · intro hx
      have hin : x ∈ before ++ r :: after :=
        List.mem_append_right _ (List.mem_cons_of_mem _ hx)
      have hrin : r ∈ before ++ r :: after := List.mem_append_right _ List.mem_cons_self
      refine ⟨hin, (behindCursor_iff_newestBy fun hid => hnot ?_).mpr (hr x hx)⟩
      have hrow := hlookup x hin
      rw [← hid] at hrow
      rwa [Prod.ext hid (Option.some.inj ((hlookup r hrin).symm.trans hrow))]
  refine List.Perm.eq_of_pairwise (fun a b ha hb hab hba => ?_) (List.pairwise_insertionSort _ _)
    hafter ((List.perm_ext_iff_of_nodup nodup_newestRows hnodup).mpr hmem)
  have hb := hlookup b (List.mem_append_right _ (List.mem_cons_of_mem _ hb))
  exact eq_of_newestBy (mem_newestRows.mp ha).1 hb hab hba

/-- The answers by cursor are pages of the rows. -/
theorem paginates_newestPage {limit : ℕ} {p : Option Cursor → Id × ρ → Prop}
    [∀ c, DecidablePred (p c)]
    (hbehind : ∀ c r, p (some c) r ↔ p none r ∧ BehindCursor createdAt c r) :
    Paginates (rowCursor createdAt) limit (newestRows createdAt t (p none))
      fun cursor => newestPage createdAt t (p cursor) limit where
  first := newestPage_eq_cutPage limit
  behind := by
    intro before r after hrows
    rw [newestPage_eq_cutPage, newestRows_behind (hbehind _) hrows]

end RatelPlatform
