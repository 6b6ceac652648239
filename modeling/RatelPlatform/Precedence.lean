import Mathlib.Algebra.Order.Group.Int
import Mathlib.Data.List.Sort

/-!
# Lists that respect a precedence

`Respects E l`: whatever has to precede an entry of `l` stands before it. A worker that
takes its batches sorted by a key respects the precedence when the key grows along it
(`Respects.append_sorted`), and need not when the key does not
(`exists_sorted_reversed`).
-/

namespace RatelPlatform

variable {α : Type} {E E' : α → α → Prop} {l l' : List α} {a b c : α}

/-- Whatever has to precede an entry stands before it. -/
def Respects (E : α → α → Prop) (l : List α) : Prop :=
  ∀ l₁ b l₂, l = l₁ ++ b :: l₂ → ∀ a, E a b → a ∈ l₁

theorem Respects.nil : Respects E [] := by
  intro l₁ b l₂ h
  simp at h

theorem respects_append : Respects E (l ++ l') ↔ Respects E l ∧
    ∀ l₁ b l₂, l' = l₁ ++ b :: l₂ → ∀ a, E a b → a ∈ l ∨ a ∈ l₁ := by
  refine ⟨?_, ?_⟩
  · intro h
    refine ⟨fun l₁ b l₂ hl => h l₁ b (l₂ ++ l') (by simp [hl]), fun l₁ b l₂ hl' a hab => ?_⟩
    exact List.mem_append.mp (h (l ++ l₁) b l₂ (by simp [hl']) a hab)
  · rintro ⟨h, h'⟩ l₁ b l₂ hsplit a hab
    rcases List.append_eq_append_iff.mp hsplit with ⟨m, rfl, hl'⟩ | ⟨m, hl, hm⟩
    · exact List.mem_append.mpr (h' m b l₂ hl' a hab)
    · cases m with
      | nil =>
        rcases h' [] b l₂ hm.symm a hab with ha | ha
        · rw [hl] at ha
          simpa using ha
        · simp at ha
      | cons c m =>
        obtain ⟨rfl, -⟩ := List.cons.inj hm
        exact h l₁ b m hl a hab

theorem Respects.of_append (h : Respects E (l ++ l')) : Respects E l :=
  (respects_append.mp h).1

/-- Nothing new has to precede an entry. -/
theorem Respects.mono (h : Respects E l) (himp : ∀ b ∈ l, ∀ a, E' a b → E a b) :
    Respects E' l := by
  intro l₁ b l₂ hl a hab
  apply h l₁ b l₂ hl a
  apply himp b _ a hab
  simp [hl]

/-- **A sorted batch**: along the precedence the key grows, and what has to precede an
entry of the batch has been taken or is in the batch. -/
theorem Respects.append_sorted {key : α → ℤ} (h : Respects E l)
    (hkey : ∀ a b, E a b → key a < key b) (hsorted : l'.Pairwise fun a b => key a ≤ key b)
    (hbatch : ∀ b ∈ l', ∀ a, E a b → a ∈ l ∨ a ∈ l') : Respects E (l ++ l') := by
  refine respects_append.mpr ⟨h, ?_⟩
  rintro l₁ b l₂ rfl a hab
  apply (hbatch b (by simp) a hab).imp_right
  intro hmem
  have hlt := hkey a b hab
  rcases List.mem_append.mp hmem with hbefore | hafter
  · exact hbefore
  · rcases List.mem_cons.mp hafter with rfl | hafter
    · exact absurd hlt (lt_irrefl _)
    · obtain ⟨-, hsorted, -⟩ := List.pairwise_append.mp hsorted
      exact absurd hlt (not_lt.mpr ((List.pairwise_cons.mp hsorted).1 a hafter))

/-! ## Who stands before whom -/

theorem pair_sublist_concat (h : [a, b].Sublist (l ++ [c])) :
    [a, b].Sublist l ∨ (a ∈ l ∧ b = c) := by
  rw [List.sublist_append_iff] at h
  obtain ⟨l₁, l₂, hsplit, h₁, h₂⟩ := h
  cases l₂ with
  | nil =>
    rw [List.append_nil] at hsplit
    rw [hsplit]
    exact .inl h₁
  | cons x l₂ =>
    obtain rfl : l₂ = [] := by
      have hlength := h₂.length_le
      simp at hlength
      exact hlength
    obtain rfl := List.singleton_sublist.mp h₂ |> List.mem_singleton.mp
    have hpair : [a] ++ [b] = l₁ ++ [x] := hsplit
    obtain ⟨rfl, hbx⟩ := List.append_inj' hpair rfl
    exact .inr ⟨List.singleton_sublist.mp h₁, List.singleton_inj.mp hbx⟩

/-- **Why the key has to grow**: of two entries whose keys do not grow, sorting may put
the second one first. -/
theorem exists_sorted_reversed [DecidableEq α] {key : α → ℤ} (ha : a ∈ l) (hb : b ∈ l)
    (hne : a ≠ b) (hle : key b ≤ key a) : ∃ l₁ l₂, (l₁ ++ b :: l₂).Perm l ∧
      (l₁ ++ b :: l₂).Pairwise (fun x y => key x ≤ key y) ∧ a ∈ l₂ := by
  let first : α → α → Bool := fun x y =>
    decide (key x < key y) || (decide (key x = key y) && (decide (x = b) || !decide (y = b)))
  have hsorted : (l.mergeSort first).Pairwise fun x y => first x y = true := by
    apply List.pairwise_mergeSort
    · intro x y z
      simp only [first]
      grind
    · intro x y
      simp only [first]
      grind
  have hperm := List.mergeSort_perm l first
  obtain ⟨l₁, l₂, hsplit⟩ := List.append_of_mem (hperm.mem_iff.mpr hb)
  rw [hsplit] at hsorted hperm
  refine ⟨l₁, l₂, hperm, hsorted.imp ?_, ?_⟩
  · intro x y
    simp only [first]
    grind
  · rcases List.mem_append.mp (hperm.mem_iff.mpr ha) with hbefore | hafter
    · -- whoever stands before `b` has a smaller key
      have hfirst := (List.pairwise_append.mp hsorted).2.2 a hbefore b (by simp)
      simp only [first] at hfirst
      grind
    · exact (List.mem_cons.mp hafter).resolve_left hne

end RatelPlatform
