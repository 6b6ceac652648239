import Mathlib.Data.List.Chain
import Mathlib.Order.Lattice

/-!
# Periods that follow on one another

A period begins at a time and stops before another one, or does not stop. Periods of which
each stops where the next one begins are in order (none stops before it begins) exactly when
their beginnings ascend (`Consecutive.ordered_iff`); then at most one of them is in effect
at any time (`Consecutive.atMostOne`).
-/

namespace RatelPlatform

universe u

variable {T : Type u}

/-- A half-open period of time. -/
structure Period (T : Type u) where
  /-- when it begins -/
  start : T
  /-- when it stops, if it does -/
  stop : Option T

namespace Period

variable [LinearOrder T]

/-- The period has begun and not stopped. -/
def InEffect (p : Period T) (t : T) : Prop := p.start ≤ t ∧ ∀ e ∈ p.stop, t < e

instance (p : Period T) (t : T) : Decidable (p.InEffect t) :=
  inferInstanceAs (Decidable (_ ∧ ∀ e ∈ p.stop, _))

/-- The period does not stop before it begins. -/
def Ordered (p : Period T) : Prop := ∀ e ∈ p.stop, p.start ≤ e

instance (p : Period T) : Decidable p.Ordered := inferInstanceAs (Decidable (∀ e ∈ p.stop, _))

end Period

/-- Each period stops where the next one begins. -/
def Consecutive (ps : List (Period T)) : Prop := ps.IsChain fun p q => p.stop = some q.start

/-- Each period begins no earlier than the one before. -/
def StartsAscend [LE T] (ps : List (Period T)) : Prop := ps.IsChain fun p q => p.start ≤ q.start

namespace Consecutive

variable [LinearOrder T] {p : Period T} {ps : List (Period T)}

/-- **The periods are in order** when their beginnings ascend. -/
theorem ordered_iff (h : Consecutive ps) (hlast : ∀ p ∈ ps.getLast?, p.stop = none) :
    (∀ p ∈ ps, p.Ordered) ↔ StartsAscend ps := by
  induction ps with
  | nil => exact iff_of_true nofun .nil
  | cons p ps ih =>
    cases ps with
    | nil =>
      refine iff_of_true (fun q hq e he => ?_) (.singleton p)
      rw [List.mem_singleton.mp hq, hlast p rfl] at he
      cases he
    | cons q ps =>
      obtain ⟨hstop, hrest⟩ := List.isChain_cons_cons.mp h
      have hordered : p.Ordered ↔ p.start ≤ q.start := by simp [Period.Ordered, hstop]
      rw [List.forall_mem_cons, hordered, StartsAscend, List.isChain_cons_cons]
      exact and_congr_right' (ih hrest hlast)

/-- Nothing that begins later has begun. -/
theorem notInEffect_of_stop {q : Period T} {t : T} (h : p.stop = some q.start)
    (ht : p.InEffect t) (hsorted : StartsAscend (q :: ps)) :
    ∀ r ∈ q :: ps, ¬ r.InEffect t := by
  have htrans : (q :: ps).Pairwise fun p q => p.start ≤ q.start :=
    List.isChain_iff_pairwise.mp hsorted
  have hlt : t < q.start := ht.2 q.start h
  intro r hr hin
  rcases List.mem_cons.mp hr with rfl | hr
  · exact absurd hin.1 (not_le_of_gt hlt)
  · exact absurd (((List.pairwise_cons.mp htrans).1 r hr).trans hin.1) (not_le_of_gt hlt)

/-- **At most one at a time**, when the beginnings ascend. -/
theorem atMostOne (h : Consecutive ps) (hsorted : StartsAscend ps) (t : T) :
    (ps.filter fun p => p.InEffect t).length ≤ 1 := by
  induction ps with
  | nil => simp
  | cons p ps ih =>
    cases ps with
    | nil => exact List.length_filter_le _ _
    | cons q ps =>
      obtain ⟨hstop, hrest⟩ := List.isChain_cons_cons.mp h
      obtain ⟨-, hsorted⟩ := List.isChain_cons_cons.mp hsorted
      rw [List.filter_cons]
      split_ifs with ht
      · have hnone := notInEffect_of_stop hstop (of_decide_eq_true ht) hsorted
        rw [List.filter_eq_nil_iff.mpr fun r hr => by simpa using hnone r hr]
        exact le_refl 1
      · exact ih hrest hsorted

end Consecutive

end RatelPlatform
