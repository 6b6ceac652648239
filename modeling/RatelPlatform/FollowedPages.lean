import RatelPlatform.Cursors
import RatelPlatform.ListedExpenses

/-!
# Following the cursors of a list

Expenses and payroll runs are listed by the same scheme, and a client hands back the text of
the cursor it was given. Whoever does so from the first page comes to an end and has seen every
row that meets the filter once, newest first (`lists_visit_rows_once`).
-/

namespace RatelPlatform

/-! ## Expenses -/

/-- A page of the list, for the text of a cursor. -/
def ExpenseRepository.findManyFrom (r : CursorRuntime) (expenses : Table Id ExpenseRow)
    (filter : ExpenseListFilter) : Option (List Char) →
      Except CursorError (List Expense × Option (List Char)) :=
  encodedPages r.encodeCursor r.readCursor fun cursor =>
    let page := findMany expenses { filter with cursor }
    (page.data, page.nextCursor)

/-! ## Payroll runs -/

/-- What a list of payroll runs is narrowed to. -/
structure PayrollRunListFilter where
  organizationId : Id
  cursor : Option Cursor
  limit : ℕ

/-- The row meets the conditions of the query. -/
structure PayrollRunListFilter.Matches (filter : PayrollRunListFilter) (r : Id × PayrollRunRow) :
    Prop where
  organization : r.2.columns.organizationId = filter.organizationId
  cursor : ∀ c ∈ filter.cursor, BehindCursor (fun row => row.columns.createdAt) c r

instance PayrollRunListFilter.decidableMatches (filter : PayrollRunListFilter)
    (r : Id × PayrollRunRow) : Decidable (filter.Matches r) :=
  decidable_of_iff (r.2.columns.organizationId = filter.organizationId ∧
      ∀ c ∈ filter.cursor, BehindCursor (fun row : PayrollRunRow => row.columns.createdAt) c r)
    ⟨fun ⟨h₁, h₂⟩ => ⟨h₁, h₂⟩, fun ⟨h₁, h₂⟩ => ⟨h₁, h₂⟩⟩

theorem PayrollRunListFilter.matches_cursor_iff (filter : PayrollRunListFilter) (c : Cursor)
    (r : Id × PayrollRunRow) : Matches { filter with cursor := some c } r ↔
      Matches { filter with cursor := none } r ∧
        BehindCursor (fun row => row.columns.createdAt) c r := by
  refine ⟨?_, ?_⟩
  · rintro ⟨horg, hbehind⟩
    exact ⟨⟨horg, fun _ h => by cases h⟩, hbehind c rfl⟩
  · rintro ⟨⟨horg, -⟩, hbehind⟩
    exact ⟨horg, fun c' hc' => Option.some.inj hc' ▸ hbehind⟩

/-- The run of a row and its payslips. -/
def PayrollRunRepository.toDomain (id : Id) (row : PayrollRunRow) : PayrollRun :=
  .reconstitute { row.columns with id } row.payslips

/-- `findMany` -/
def PayrollRunRepository.findMany (runs : Table Id PayrollRunRow) (filter : PayrollRunListFilter) :
    Page PayrollRun :=
  let page := newestPage (fun row => row.columns.createdAt) runs filter.Matches filter.limit
  { data := page.1.map fun r => toDomain r.1 r.2, nextCursor := page.2 }

/-- A page of the list, for the text of a cursor. -/
def PayrollRunRepository.findManyFrom (r : CursorRuntime) (runs : Table Id PayrollRunRow)
    (filter : PayrollRunListFilter) : Option (List Char) →
      Except CursorError (List PayrollRun × Option (List Char)) :=
  encodedPages r.encodeCursor r.readCursor fun cursor =>
    let page := findMany runs { filter with cursor }
    (page.data, page.nextCursor)

/-! ## What is visited -/

/-- The pages have what is looked for once each, newest first. -/
structure VisitOnce {α : Type} (createdAt : α → JsDate) (id : α → Id) (found : α → Prop)
    (pages : List (List α)) : Prop where
  /-- `createdAt` and, among equals, `id` descend -/
  order : pages.flatten.Pairwise fun a b => (createdAt b).ms < (createdAt a).ms ∨
    createdAt b = createdAt a ∧ id b < id a
  nodup : pages.flatten.Nodup
  mem_iff : ∀ a, a ∈ pages.flatten ↔ found a

section

variable {ρ α : Type}

/-- No two rows of a table are the same in the order. -/
theorem pairwise_newestRows (createdAt : ρ → JsDate) (t : Table Id ρ) (p : Id × ρ → Prop)
    [DecidablePred p] : (newestRows createdAt t p).Pairwise fun a b =>
    (createdAt b.2).ms < (createdAt a.2).ms ∨ createdAt b.2 = createdAt a.2 ∧ b.1 < a.1 := by
  have hsorted : (newestRows createdAt t p).Pairwise (NewestBy createdAt) :=
    List.pairwise_insertionSort _ _
  refine (hsorted.and nodup_newestRows).imp_of_mem ?_
  rintro a b ha hb ⟨hdate | ⟨hdate, hle⟩, hne⟩
  · exact .inl hdate
  · refine .inr ⟨hdate, lt_of_le_of_ne hle fun hid => hne ?_⟩
    have hrow := (mem_newestRows.mp ha).1
    rw [← hid] at hrow
    exact Prod.ext hid.symm (Option.some.inj (hrow.symm.trans (mem_newestRows.mp hb).1))

/-- **What a list of the platform visits.** The conditions are those without a cursor and those
behind one, and every row is shown as something that has its date and its id. -/
theorem exists_visitOnce (r : CursorRuntime) {limit : ℕ} (hlimit : 1 ≤ limit)
    (createdAt : ρ → JsDate) (t : Table Id ρ) (p : Option Cursor → Id × ρ → Prop)
    [∀ c, DecidablePred (p c)]
    (hbehind : ∀ c x, p (some c) x ↔ p none x ∧ BehindCursor createdAt c x)
    (f : Id × ρ → α) (key : α → Cursor) (hkey : key ∘ f = rowCursor createdAt) :
    ∃ pages, Follows (encodedPages r.encodeCursor r.readCursor fun cursor =>
        ((newestPage createdAt t (p cursor) limit).1.map f,
          (newestPage createdAt t (p cursor) limit).2)) none pages ∧
      VisitOnce (fun a => (key a).createdAt) (fun a => (key a).id)
        (fun a => ∃ id row, t.lookup id = some row ∧ p none (id, row) ∧ a = f (id, row)) pages := by
  have hpages : Paginates (key ∘ f) limit (newestRows createdAt t (p none))
      fun cursor => newestPage createdAt t (p cursor) limit := by
    rw [hkey]
    exact paginates_newestPage hbehind
  have hread : r.readCursor none = .ok none := rfl
  obtain ⟨pages, hfollows, hflatten⟩ :=
    hpages.map.follows hlimit hread CursorRuntime.readCursor_encodeCursor
  have hcreatedAt : ∀ x, (key (f x)).createdAt = createdAt x.2 := fun x =>
    congrArg Cursor.createdAt (congrFun hkey x)
  have hid : ∀ x, (key (f x)).id = x.1 := fun x => congrArg Cursor.id (congrFun hkey x)
  refine ⟨pages, hfollows, ?_, ?_, fun a => ?_⟩
  · rw [hflatten, List.pairwise_map]
    refine (pairwise_newestRows createdAt t (p none)).imp fun h => ?_
    rwa [hcreatedAt, hcreatedAt, hid, hid]
  · rw [hflatten]
    refine nodup_newestRows.map_on fun x hx y hy hxy => ?_
    have hxid : x.1 = y.1 := by rw [← hid, ← hid, hxy]
    have hrow := (mem_newestRows.mp hx).1
    rw [hxid] at hrow
    exact Prod.ext hxid (Option.some.inj (hrow.symm.trans (mem_newestRows.mp hy).1))
  · rw [hflatten, List.mem_map]
    refine ⟨?_, ?_⟩
    · rintro ⟨⟨id, row⟩, hx, rfl⟩
      obtain ⟨hrow, hp⟩ := mem_newestRows.mp hx
      exact ⟨id, row, hrow, hp, rfl⟩
    · rintro ⟨id, row, hrow, hp, rfl⟩
      exact ⟨(id, row), mem_newestRows.mpr ⟨hrow, hp⟩, rfl⟩

end

/-! ## The result -/

/-- **Following the cursors visits every row once**: for both lists, every filter and limit,
there is one sequence of pages from the first to one without a cursor, and it has the rows that
meet the filter, newest first. -/
theorem lists_visit_rows_once (r : CursorRuntime) :
    (∀ (expenses : Table Id ExpenseRow) (filter : ExpenseListFilter), 1 ≤ filter.limit →
      ∃ pages, Follows (ExpenseRepository.findManyFrom r expenses filter) none pages ∧
        (∀ pages', Follows (ExpenseRepository.findManyFrom r expenses filter) none pages' →
          pages' = pages) ∧
        VisitOnce (fun e : Expense => e.props.createdAt) (fun e => e.props.id)
          (fun e => ∃ id row, expenses.lookup id = some row ∧
            ExpenseListFilter.Matches { filter with cursor := none } id row ∧
            e = ExpenseRepository.toDomain id row) pages) ∧
    (∀ (runs : Table Id PayrollRunRow) (filter : PayrollRunListFilter), 1 ≤ filter.limit →
      ∃ pages, Follows (PayrollRunRepository.findManyFrom r runs filter) none pages ∧
        (∀ pages', Follows (PayrollRunRepository.findManyFrom r runs filter) none pages' →
          pages' = pages) ∧
        VisitOnce (fun run : PayrollRun => run.props.createdAt) (fun run => run.props.id)
          (fun run => ∃ id row, runs.lookup id = some row ∧
            PayrollRunListFilter.Matches { filter with cursor := none } (id, row) ∧
            run = PayrollRunRepository.toDomain id row) pages) := by
  refine ⟨?_, ?_⟩
  · intro expenses filter hlimit
    obtain ⟨pages, hfollows, hvisit⟩ := exists_visitOnce r hlimit
      (fun row : ExpenseRow => row.createdAt) expenses
      (fun cursor x => ExpenseListFilter.Matches { filter with cursor } x.1 x.2)
      (fun c x => @ExpenseListFilter.matches_cursor_iff x.1 x.2
        { filter with cursor := none } rfl c)
      (fun x => ExpenseRepository.toDomain x.1 x.2)
      (fun e => ⟨e.props.createdAt, e.props.id⟩) rfl
    exact ⟨pages, hfollows, fun pages' h' => hfollows.unique h', hvisit⟩
  · intro runs filter hlimit
    obtain ⟨pages, hfollows, hvisit⟩ := exists_visitOnce r hlimit
      (fun row : PayrollRunRow => row.columns.createdAt) runs
      (fun cursor x => PayrollRunListFilter.Matches { filter with cursor } x)
      (fun c x => filter.matches_cursor_iff c x)
      (fun x => PayrollRunRepository.toDomain x.1 x.2)
      (fun run => ⟨run.props.createdAt, run.props.id⟩) rfl
    exact ⟨pages, hfollows, fun pages' h' => hfollows.unique h', hvisit⟩

theorem isDigit_ascii {c : Char} (hc : c.isDigit) : c.toNat < 128 := by
  have h : '0' ≤ c ∧ c ≤ '9' := by simpa [Char.isDigit, Char.le_def] using hc
  exact lt_of_le_of_lt h.2 (by decide)

/-- An id in decimal is read back. -/
theorem ofDigitChars_ofAscii (n : ℕ) : Nat.ofDigitChars 10
    ((JsString.ofAscii (Nat.toDigits 10 n)).map fun u => Char.ofNat u.toNat) 0 = n := by
  have hdigits : ∀ c ∈ Nat.toDigits 10 n, c.toNat < 128 := fun c hc =>
    isDigit_ascii (Nat.isDigit_of_mem_toDigits (by decide) (by decide) hc)
  rw [map_ofAscii hdigits, Nat.ofDigitChars_ten_toDigits]

namespace Sample

/-- Ids in decimal, and no dates but ISO ones. -/
def cursorRuntime : CursorRuntime where
  ids :=
    { text := fun id => .ofAscii (Nat.toDigits 10 id)
      place := fun s => Nat.ofDigitChars 10 (s.map fun u => Char.ofNat u.toNat) 0
      place_text := ofDigitChars_ofAscii }
  readNumber _ := none
  otherFormats _ := none
  coerce _ := .ok none

/-- Two expenses of one instant. -/
def sameInstant : Table Id ExpenseRow := oneExpense.insert 102 (expenseRow .approved 70000)

end Sample

/-- Both of two expenses of one instant are visited, in pages of one. -/
theorem visits_same_instant : ∃ pages,
    Follows (ExpenseRepository.findManyFrom Sample.cursorRuntime Sample.sameInstant
      ⟨1, none, none, none, none, 1⟩) none pages ∧
    ∀ id ∈ [101, 102], ∃ e ∈ pages.flatten, e.props.id = id := by
  obtain ⟨pages, hfollows, -, hvisit⟩ := (lists_visit_rows_once Sample.cursorRuntime).1
    Sample.sameInstant ⟨1, none, none, none, none, 1⟩ (by decide)
  refine ⟨pages, hfollows, ?_⟩
  simp only [List.mem_cons, List.not_mem_nil, or_false, forall_eq_or_imp, forall_eq]
  refine ⟨?_, ?_⟩
  · exact ⟨_, (hvisit.mem_iff _).mpr ⟨101, Sample.expenseRow .draft 50000, by decide +kernel,
      by decide +kernel, rfl⟩, rfl⟩
  · exact ⟨_, (hvisit.mem_iff _).mpr ⟨102, Sample.expenseRow .approved 70000, by decide +kernel,
      by decide +kernel, rfl⟩, rfl⟩

end RatelPlatform
