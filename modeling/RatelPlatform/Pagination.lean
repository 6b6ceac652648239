import Mathlib.Data.List.Basic

/-!
# Pages and cursors

A list that is handed out in pages: every page but the last ends with the key of its last row,
and the next one begins behind the row with that key. Whoever follows the cursors from the
first page sees every row (`Paginates.mem_reached`), and comes to an end with all of them in
their order, also where the keys are handed over as texts (`Paginates.follows`).
-/

namespace RatelPlatform

variable {α κ : Type}

/-- The first rows, and the key of the last of them when rows are left. -/
def cutPage (key : α → κ) (limit : ℕ) (rows : List α) : List α × Option κ :=
  (rows.take limit, if limit < rows.length then (rows.take limit).getLast?.map key else none)

/-- The pages that are seen when the cursors are followed. -/
inductive ReachedPage (list : Option κ → List α × Option κ) : List α × Option κ → Prop
  | first : ReachedPage list (list none)
  | next {page : List α × Option κ} {cursor : κ} :
      ReachedPage list page → page.2 = some cursor → ReachedPage list (list (some cursor))

/-- What is answered are pages of the rows: the first, and behind a row those that follow it. -/
structure Paginates (key : α → κ) (limit : ℕ) (rows : List α)
    (list : Option κ → List α × Option κ) : Prop where
  first : list none = cutPage key limit rows
  behind : ∀ {before r after}, rows = before ++ r :: after →
    list (some (key r)) = cutPage key limit after

variable {key : α → κ} {limit : ℕ} {rows : List α} {list : Option κ → List α × Option κ}

/-- Rows may be mapped before they are cut, if the keys stay. -/
theorem cutPage_map {β : Type} (key : α → κ) (f : β → α) (limit : ℕ) (rows : List β) :
    ((cutPage (key ∘ f) limit rows).1.map f, (cutPage (key ∘ f) limit rows).2) =
      cutPage key limit (rows.map f) := by
  simp only [cutPage, List.length_map, ← List.map_take, List.getLast?_map, Option.map_map]

/-- Every page is an answer. -/
theorem ReachedPage.exists_cursor {page : List α × Option κ} (h : ReachedPage list page) :
    ∃ cursor, page = list cursor := by
  cases h with
  | first => exact ⟨none, rfl⟩
  | next => exact ⟨_, rfl⟩

/-- When rows are left over, the page names its last row, and they are cut next. -/
theorem Paginates.cut_next (h : Paginates key limit rows list) (hlimit : 1 ≤ limit)
    {before after : List α} (hrows : rows = before ++ after) (hmore : limit < after.length) :
    ∃ cursor, (cutPage key limit after).2 = some cursor ∧
      list (some cursor) = cutPage key limit (after.drop limit) := by
  have hne : after.take limit ≠ [] := by
    intro hnil
    have hlength := congrArg List.length hnil
    rw [List.length_take, List.length_nil] at hlength
    omega
  obtain ⟨init, last, hlast⟩ := (List.eq_nil_or_concat' _).resolve_left hne
  have hcursor : (cutPage key limit after).2 = some (key last) := by
    rw [cutPage, if_pos hmore, hlast, List.getLast?_concat, Option.map_some]
  have hsplit : rows = (before ++ init) ++ last :: after.drop limit := by
    rw [hrows, List.append_assoc, ← List.singleton_append, ← List.append_assoc init, ← hlast,
      List.take_append_drop]
  exact ⟨key last, hcursor, h.behind hsplit⟩

/-- Pages of mapped rows. -/
theorem Paginates.map {β : Type} {f : β → α} {rows : List β}
    {list : Option κ → List β × Option κ} (h : Paginates (key ∘ f) limit rows list) :
    Paginates key limit (rows.map f) fun cursor => ((list cursor).1.map f, (list cursor).2) where
  first := by
    rw [h.first]
    exact cutPage_map key f limit rows
  behind := by
    intro before a after hrows
    obtain ⟨before, rest, rfl, -, hrest⟩ := List.map_eq_append_iff.mp hrows
    obtain ⟨b, after, rfl, rfl, rfl⟩ := List.map_eq_cons_iff.mp hrest
    rw [show list (some (key (f b))) = cutPage (key ∘ f) limit after from h.behind rfl]
    exact cutPage_map key f limit after

/-- Rows that are left over are reached through the cursor of the page. -/
theorem Paginates.next (h : Paginates key limit rows list) (hlimit : 1 ≤ limit)
    {before after : List α} (hrows : rows = before ++ after) (hmore : limit < after.length)
    (hpage : ReachedPage list (cutPage key limit after)) :
    ReachedPage list (cutPage key limit (after.drop limit)) := by
  obtain ⟨cursor, hcursor, hnext⟩ := h.cut_next hlimit hrows hmore
  rw [← hnext]
  exact .next hpage hcursor

/-- The rows that are left become fewer with every page. -/
theorem pages_induction (hlimit : 1 ≤ limit) {motive : List α → List α → Prop}
    (last : ∀ before after, rows = before ++ after → after.length ≤ limit → motive before after)
    (more : ∀ before after, rows = before ++ after → limit < after.length →
      motive (before ++ after.take limit) (after.drop limit) → motive before after) :
    motive [] rows := by
  have hleft : ∀ n : ℕ, ∀ before after, after.length = n → rows = before ++ after →
      motive before after := by
    intro n
    induction n using Nat.strongRecOn with
    | ind n ih =>
      intro before after hlength hrows
      by_cases hmore : limit < after.length
      · refine more before after hrows hmore (ih (after.drop limit).length ?_ _ _ rfl ?_)
        · rw [List.length_drop]
          omega
        · rw [List.append_assoc, List.take_append_drop, hrows]
      · exact last before after hrows (by omega)
  exact hleft rows.length [] rows rfl rfl

/-- **Every row is on a page** that is reached. -/
theorem Paginates.mem_reached (h : Paginates key limit rows list) (hlimit : 1 ≤ limit) {r : α}
    (hr : r ∈ rows) : ∃ page, ReachedPage list page ∧ r ∈ page.1 := by
  refine pages_induction (motive := fun _ after =>
    ReachedPage list (cutPage key limit after) → r ∈ after →
      ∃ page, ReachedPage list page ∧ r ∈ page.1) hlimit ?_ ?_ ?_ hr
  · intro _ after _ hle hpage hr
    rw [← List.take_of_length_le hle] at hr
    exact ⟨_, hpage, hr⟩
  · intro before after hrows hmore ih hpage hr
    rw [← List.take_append_drop limit after] at hr
    rcases List.mem_append.mp hr with hr | hr
    · exact ⟨_, hpage, hr⟩
    · exact ih (h.next hlimit hrows hmore hpage) hr
  · rw [← h.first]
    exact .first

/-! ## Cursors as texts -/

section

variable {τ ε : Type}

/-- The pages that are seen from a cursor on, until there is no next one. -/
inductive Follows (list : Option τ → Except ε (List α × Option τ)) :
    Option τ → List (List α) → Prop
  | last {cursor : Option τ} {page : List α} :
      list cursor = .ok (page, none) → Follows list cursor [page]
  | more {cursor : Option τ} {page : List α} {nextCursor : τ} {pages : List (List α)} :
      list cursor = .ok (page, some nextCursor) → Follows list (some nextCursor) pages →
        Follows list cursor (page :: pages)

/-- A list that is given its cursors as texts, and hands them out as such. -/
def encodedPages (encode : κ → τ) (decode : Option τ → Except ε (Option κ))
    (list : Option κ → List α × Option κ) (cursor : Option τ) : Except ε (List α × Option τ) := do
  let cursor ← decode cursor
  pure ((list cursor).1, (list cursor).2.map encode)

/-- There is one way to follow the cursors. -/
theorem Follows.unique {list : Option τ → Except ε (List α × Option τ)} {cursor : Option τ}
    {pages pages' : List (List α)} (h : Follows list cursor pages)
    (h' : Follows list cursor pages') : pages' = pages := by
  induction h generalizing pages' with
  | last hpage =>
    cases h' with
    | last hpage' => cases hpage.symm.trans hpage'; rfl
    | more hpage' _ => cases hpage.symm.trans hpage'
  | more hpage _ ih =>
    cases h' with
    | last hpage' => cases hpage.symm.trans hpage'
    | more hpage' hrest =>
      cases hpage.symm.trans hpage'
      rw [ih hrest]

/-- **Following the cursors ends**, and the pages are the rows in their order, when a cursor is
decoded to the key it was made of. -/
theorem Paginates.follows (h : Paginates key limit rows list) (hlimit : 1 ≤ limit)
    {encode : κ → τ} {decode : Option τ → Except ε (Option κ)} (hnone : decode none = .ok none)
    (hsome : ∀ k, decode (some (encode k)) = .ok (some k)) :
    ∃ pages, Follows (encodedPages encode decode list) none pages ∧ pages.flatten = rows := by
  refine pages_induction (motive := fun _ after => ∀ text cursor,
    decode text = .ok cursor → list cursor = cutPage key limit after →
      ∃ pages, Follows (encodedPages encode decode list) text pages ∧ pages.flatten = after)
    hlimit ?_ ?_ none none hnone h.first
  · intro _ after _ hle text cursor hdecode hpage
    refine ⟨[after], .last ?_, List.flatten_singleton⟩
    rw [encodedPages, hdecode]
    simp only [bind, Except.bind, pure, Except.pure, hpage, cutPage]
    rw [List.take_of_length_le hle, if_neg (by omega)]
    rfl
  · intro before after hrows hmore ih text cursor hdecode hpage
    obtain ⟨k, hk, hnext⟩ := h.cut_next hlimit hrows hmore
    obtain ⟨pages, hpages, hflatten⟩ := ih (some (encode k)) (some k) (hsome k) hnext
    refine ⟨after.take limit :: pages, .more ?_ hpages, ?_⟩
    · rw [encodedPages, hdecode]
      simp only [bind, Except.bind, pure, Except.pure, hpage, hk]
      rfl
    · rw [List.flatten_cons, hflatten, List.take_append_drop]

end

end RatelPlatform
