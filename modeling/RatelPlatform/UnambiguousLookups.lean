import Mathlib.Data.List.Nodup
import Mathlib.Data.List.Pairwise

/-!
# Lookups that can find one element only

`p n a` says that the name `n` matches the element `a`. A lookup that returns some element which
matches is up to whoever holds the elements, unless at most one does. So it is for every name
exactly when no two elements are ever matched together (`length_filter_le_one_iff`).

What adds an element, or gives another label to one, keeps this exactly when no other element is
matched together with that one (`pairwise_concat_iff`, `pairwise_relabel_iff`).
-/

namespace RatelPlatform

universe u v w

variable {ν : Type u} {α : Type v} {κ : Type w} {p : ν → α → Bool}

/-- Some name matches both. -/
def MatchedTogether (p : ν → α → Bool) (a b : α) : Prop := ∃ n, p n a = true ∧ p n b = true

theorem MatchedTogether.symm {a b : α} (h : MatchedTogether p a b) : MatchedTogether p b a := by
  obtain ⟨n, ha, hb⟩ := h
  exact ⟨n, hb, ha⟩

/-- What is compared by a normal form is matched together when it has the same one. -/
theorem matchedTogether_normalForm {β : Type w} [DecidableEq β] (f : α → β) {a b : α} :
    MatchedTogether (fun n a => decide (f a = f n)) a b ↔ f a = f b := by
  simp only [MatchedTogether, decide_eq_true_eq]
  refine ⟨?_, ?_⟩
  · rintro ⟨n, ha, hb⟩
    exact ha.trans hb.symm
  · exact fun h => ⟨b, h, rfl⟩

/-- **When every name matches at most one element**: no two are matched together. -/
theorem length_filter_le_one_iff {l : List α} : (∀ n, (l.filter (p n)).length ≤ 1) ↔
    l.Pairwise fun a b => ¬ MatchedTogether p a b := by
  induction l with
  | nil => simp
  | cons a l ih =>
    rw [List.pairwise_cons, ← ih]
    refine ⟨?_, ?_⟩
    · intro h
      refine ⟨?_, fun n => ?_⟩
      · rintro b hb ⟨n, ha, hpb⟩
        have hn := h n
        rw [List.filter_cons_of_pos ha, List.length_cons] at hn
        have hpos : 0 < (l.filter (p n)).length :=
          List.length_pos_of_mem (List.mem_filter.mpr ⟨hb, hpb⟩)
        omega
      · exact Nat.le_trans ((List.sublist_cons_self a l).filter (p n)).length_le (h n)
    · rintro ⟨hhead, htail⟩ n
      by_cases ha : p n a = true
      · -- what matches the head leaves nothing to the tail
        have hnone : l.filter (p n) = [] :=
          List.filter_eq_nil_iff.mpr fun b hb hpb => hhead b hb ⟨n, ha, hpb⟩
        simp [ha, hnone]
      · rw [List.filter_cons_of_neg ha]
        exact htail n

/-- An element is added. -/
theorem pairwise_concat_iff {R : α → α → Prop} {l : List α} {a : α} :
    (l ++ [a]).Pairwise R ↔ l.Pairwise R ∧ ∀ b ∈ l, R b a := by
  simp [List.pairwise_append]

/-- Only what concerns the elements with the key `k` changes. -/
theorem pairwise_relabel_iff {R R' : α → α → Prop} {key : α → κ} {l : List α} {a : α}
    (hkeys : (l.map key).Nodup) (ha : a ∈ l) (hsymm : ∀ {b c}, R' b c → R' c b)
    (hsame : ∀ b c, key b ≠ key a → key c ≠ key a → (R' b c ↔ R b c)) (hl : l.Pairwise R) :
    l.Pairwise R' ↔ ∀ b ∈ l, key b ≠ key a → R' b a := by
  have : Std.Symm R' := ⟨fun _ _ h => hsymm h⟩
  refine ⟨?_, ?_⟩
  · exact fun h b hb hne => h.forall hb ha fun heq => hne (congrArg key heq)
  · intro h
    refine (hl.and (List.pairwise_map.mp hkeys)).imp_of_mem ?_
    rintro b c hb hc ⟨hbc, hne⟩
    by_cases hba : key b = key a
    · obtain rfl := List.inj_on_of_nodup_map hkeys hb ha hba
      exact hsymm (h c hc (Ne.symm hne))
    by_cases hca : key c = key a
    · obtain rfl := List.inj_on_of_nodup_map hkeys hc ha hca
      exact h b hb hba
    · exact (hsame b c hba hca).mpr hbc

end RatelPlatform
