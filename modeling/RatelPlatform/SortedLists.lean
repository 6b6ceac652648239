import Mathlib.Data.List.Sort

/-!
# Sorted lists

A query that is ordered returns a sorted list, and one that looks for the first row the head of
it. Rows are ordered by a date and, where that is the same, by their ids, both descending
(`Descending`).
-/

namespace RatelPlatform

/-! ## The first of a sorted list -/

section

variable {α : Type} {r : α → α → Prop} [DecidableRel r] [Std.Total r] [IsTrans α r]

/-- The first element has all others behind it. -/
theorem head_insertionSort {l : List α} {a : α} (h : (l.insertionSort r).head? = some a) :
    a ∈ l ∧ ∀ b ∈ l, b = a ∨ r a b := by
  have hsorted : (l.insertionSort r).Pairwise r := List.pairwise_insertionSort r l
  rcases hsort : l.insertionSort r with _ | ⟨first, rest⟩
  · rw [hsort] at h
    cases h
  · rw [hsort] at h hsorted
    obtain rfl := Option.some.inj h
    have hmem : ∀ b, b ∈ l ↔ b ∈ first :: rest := fun b => by
      rw [← hsort, List.mem_insertionSort]
    refine ⟨(hmem first).mpr List.mem_cons_self, fun b hb => ?_⟩
    exact (List.mem_cons.mp ((hmem b).mp hb)).imp_right ((List.pairwise_cons.mp hsorted).1 b)

/-- An element that is behind no other is the first. -/
theorem head_insertionSort_eq_some {l : List α} {a : α} (ha : a ∈ l)
    (hfirst : ∀ b ∈ l, b = a ∨ ¬ r b a) : (l.insertionSort r).head? = some a := by
  rcases hhead : (l.insertionSort r).head? with _ | first
  · rw [List.head?_eq_none_iff] at hhead
    have hin := (List.mem_insertionSort r).mpr ha
    rw [hhead] at hin
    cases hin
  · obtain ⟨hmem, hbehind⟩ := head_insertionSort hhead
    rcases hfirst first hmem with rfl | hnot
    · rfl
    · rcases hbehind a ha with rfl | hbefore
      · rfl
      · exact absurd hbefore hnot

end

/-! ## Related lists -/

section

variable {α β : Type} {S : α → β → Prop} {r : α → α → Prop} {s : β → β → Prop} [DecidableRel r]
  [DecidableRel s]

/-- Related lists are sorted alike when related elements are compared alike. -/
theorem forall₂_insertionSort (hrs : ∀ {a a' b b'}, S a b → S a' b' → (r a a' ↔ s b b'))
    {as : List α} {bs : List β} (h : List.Forall₂ S as bs) :
    List.Forall₂ S (as.insertionSort r) (bs.insertionSort s) := by
  have hinsert : ∀ {a b} {as : List α} {bs : List β}, S a b → List.Forall₂ S as bs →
      List.Forall₂ S (as.orderedInsert r a) (bs.orderedInsert s b) := by
    intro a b as bs hab h
    induction h with
    | nil => exact .cons hab .nil
    | cons hhead htail ih =>
      rw [List.orderedInsert_cons, List.orderedInsert_cons]
      split_ifs with hr hs hs
      · exact .cons hab (.cons hhead htail)
      · exact absurd ((hrs hab hhead).mp hr) hs
      · exact absurd ((hrs hab hhead).mpr hs) hr
      · exact .cons hhead ih
  induction h with
  | nil => exact .nil
  | cons hhead _ ih => exact hinsert hhead ih

theorem exists_of_forall₂ {as : List α} {bs : List β} (h : List.Forall₂ S as bs) {b : β}
    (hb : b ∈ bs) : ∃ a ∈ as, S a b := by
  induction h with
  | nil => cases hb
  | cons hhead _ ih =>
    rcases List.mem_cons.mp hb with rfl | hb
    · exact ⟨_, List.mem_cons_self, hhead⟩
    · obtain ⟨a, ha, hab⟩ := ih hb
      exact ⟨a, List.mem_cons_of_mem _ ha, hab⟩

theorem forall₂_head {as : List α} {bs : List β} (h : List.Forall₂ S as bs) :
    Option.Rel S as.head? bs.head? := by
  cases h with
  | nil => exact .none
  | cons hhead _ => exact .some hhead

end

/-! ## Descending by a key -/

section

variable {α κ ι : Type} [LinearOrder κ] [LinearOrder ι] {key : α → κ} {tie : α → ι}
  {r : α → α → Prop}

/-- Descending by a key, and by another one where that is the same. -/
def Descending (key : α → κ) (tie : α → ι) (r : α → α → Prop) : Prop :=
  ∀ a b, r a b ↔ key b < key a ∨ key b = key a ∧ tie b ≤ tie a

theorem Descending.isTrans (h : Descending key tie r) : IsTrans α r where
  trans a b c hab hbc := by
    rw [h] at hab hbc ⊢
    rcases hab with hab | ⟨hab, htie⟩ <;> rcases hbc with hbc | ⟨hbc, htie'⟩
    · exact .inl (hbc.trans hab)
    · exact .inl (hbc ▸ hab)
    · exact .inl (hab ▸ hbc)
    · exact .inr ⟨hbc.trans hab, htie'.trans htie⟩

theorem Descending.total (h : Descending key tie r) : Std.Total r where
  total a b := by
    rw [h, h]
    rcases lt_trichotomy (key a) (key b) with hkey | hkey | hkey
    · exact .inr (.inl hkey)
    · rcases le_total (tie a) (tie b) with htie | htie
      · exact .inr (.inr ⟨hkey, htie⟩)
      · exact .inl (.inr ⟨hkey.symm, htie⟩)
    · exact .inl (.inl hkey)

/-- What is before and behind something has its keys. -/
theorem Descending.eq (h : Descending key tie r) {a b : α} (hab : r a b) (hba : r b a) :
    key a = key b ∧ tie a = tie b := by
  rw [h] at hab hba
  rcases hab with hab | ⟨hab, htie⟩ <;> rcases hba with hba | ⟨hba, htie'⟩
  · exact absurd hab hba.not_gt
  · exact absurd hba hab.ne'
  · exact absurd hab hba.ne'
  · exact ⟨hba, htie'.antisymm htie⟩

end

end RatelPlatform
