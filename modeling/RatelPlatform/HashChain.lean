import Mathlib.Data.List.Forall2
import Mathlib.Data.List.Induction

/-!
# Hash chains

A row of a hash chain stores its own hash and the hash of the row before it; the
first row stores the genesis value instead. `Linked` says that the stored hashes
fit together, whatever they are hashes of.

`Linked.agree` is what such a chain is for: where a hash binds its row, two chains
that end in the same hash are the same chain. The induction goes backwards from
the common end, because a row names its predecessor and not its successor.
-/

namespace RatelPlatform

universe u v

variable {ρ : Type u} {η : Type v} (prev hash : ρ → η)

/-- The rows are linked, the first one to `h`. -/
def Linked : η → List ρ → Prop
  | _, [] => True
  | h, r :: rows => prev r = h ∧ Linked (hash r) rows

/-- The hash a next row has to store. -/
def chainTip : η → List ρ → η
  | h, [] => h
  | _, r :: rows => chainTip (hash r) rows

variable {prev hash}

theorem chainTip_append (h : η) (rows rows' : List ρ) :
    chainTip hash h (rows ++ rows') = chainTip hash (chainTip hash h rows) rows' := by
  induction rows generalizing h with
  | nil => rfl
  | cons r rows ih => exact ih (hash r)

theorem chainTip_concat (h : η) (rows : List ρ) (r : ρ) :
    chainTip hash h (rows ++ [r]) = hash r := chainTip_append h rows [r]

theorem chainTip_eq_getLast? (h : η) (rows : List ρ) :
    chainTip hash h rows = (rows.getLast?.map hash).getD h := by
  induction rows using List.reverseRecOn with
  | nil => rfl
  | append_singleton rows r _ =>
    rw [chainTip_concat, List.getLast?_concat]
    rfl

namespace Linked

theorem append_iff {h : η} {rows rows' : List ρ} :
    Linked prev hash h (rows ++ rows') ↔
      Linked prev hash h rows ∧ Linked prev hash (chainTip hash h rows) rows' := by
  induction rows generalizing h with
  | nil => exact (and_iff_right trivial).symm
  | cons r rows ih => simp only [List.cons_append, Linked, ih, chainTip, and_assoc]

theorem concat_iff {h : η} {rows : List ρ} {r : ρ} :
    Linked prev hash h (rows ++ [r]) ↔
      Linked prev hash h rows ∧ prev r = chainTip hash h rows := by
  rw [append_iff]
  exact and_congr_right fun _ => and_iff_left trivial

/-- Two neighbours can trade places only if one of them repeats the hash before them. -/
theorem hash_eq_tip_of_swap {h : η} {rows rest : List ρ} {a b : ρ}
    (hab : Linked prev hash h (rows ++ a :: b :: rest))
    (hba : Linked prev hash h (rows ++ b :: a :: rest)) : hash a = chainTip hash h rows := by
  obtain ⟨-, -, hb, -⟩ := append_iff.mp hab
  obtain ⟨-, hb', -⟩ := append_iff.mp hba
  exact hb.symm.trans hb'

/-- **Chains with a common end are one chain**: if equal hashes bind rows that are
related and store the same predecessor, and no row hashes to the genesis value,
then two linked chains that end in the same hash are related row by row. -/
theorem agree {R : ρ → ρ → Prop} {genesis : η} {rows rows' : List ρ}
    (hbind : ∀ r ∈ rows, ∀ r' ∈ rows', hash r = hash r' → prev r = prev r' ∧ R r r')
    (hne : ∀ r ∈ rows, hash r ≠ genesis) (hne' : ∀ r ∈ rows', hash r ≠ genesis)
    (h : Linked prev hash genesis rows) (h' : Linked prev hash genesis rows')
    (htip : chainTip hash genesis rows = chainTip hash genesis rows') :
    List.Forall₂ R rows rows' := by
  induction rows using List.reverseRecOn generalizing rows' with
  | nil =>
    rcases List.eq_nil_or_concat' rows' with rfl | ⟨init', r', rfl⟩
    · exact .nil
    · rw [chainTip_concat] at htip
      exact absurd htip.symm (hne' r' (by simp))
  | append_singleton init r ih =>
    rcases List.eq_nil_or_concat' rows' with rfl | ⟨init', r', rfl⟩
    · rw [chainTip_concat] at htip
      exact absurd htip (hne r (by simp))
    · rw [chainTip_concat, chainTip_concat] at htip
      obtain ⟨hprev, hrel⟩ := hbind r (by simp) r' (by simp) htip
      obtain ⟨hinit, hr⟩ := concat_iff.mp h
      obtain ⟨hinit', hr'⟩ := concat_iff.mp h'
      have hrest := ih
        (fun x hx y hy => hbind x (List.mem_append_left _ hx) y (List.mem_append_left _ hy))
        (fun x hx => hne x (List.mem_append_left _ hx))
        (fun y hy => hne' y (List.mem_append_left _ hy)) hinit hinit'
        (hr.symm.trans (hprev.trans hr'))
      exact List.rel_append hrest (.cons hrel .nil)

end Linked

end RatelPlatform
