import Mathlib.Order.Basic
import RatelPlatform.Reach

/-!
# Tasks over a state that grows

Any number of tasks work on one shared state, each call by call: requests with their awaits,
workers of a queue. Between two calls of a task the others make theirs, and other things happen
to the state.

What a task knows of the state has to survive all that. It does where the state only grows, in
a preorder, and what a task knows of a state holds of every larger one. Then it is enough to
look at one call at a time (`Rely.reaches`).
-/

namespace RatelPlatform

universe u v w x

/-- Tasks of type `T` on a state of type `S`. -/
structure TaskMachine (S : Type u) (T : Type v) (L : Type w) (X : Type x) where
  /-- a task makes a call, and goes on -/
  call : S → T → L → Option (S × T)
  /-- something else happens -/
  event : S → X → Option S

/-- What happens next. -/
inductive TaskLabel (L : Type w) (X : Type x)
  | call (task : ℕ) (label : L)
  | event (label : X)

/-- The shared state, and where each task stands. -/
structure TaskState (S : Type u) (T : Type v) where
  shared : S
  tasks : ℕ → T

namespace TaskMachine

variable {S : Type u} {T : Type v} {L : Type w} {X : Type x} (M : TaskMachine S T L X)

/-- The next state, if the label is possible. -/
def next (σ : TaskState S T) : TaskLabel L X → Option (TaskState S T)
  | .call i l => (M.call σ.shared (σ.tasks i) l).map fun r =>
    ⟨r.1, Function.update σ.tasks i r.2⟩
  | .event l => (M.event σ.shared l).map fun s => { σ with shared := s }

/-- What is sound of the state, and what a task knows of it. -/
structure Rely [Preorder S] where
  Sound : S → Prop
  Knows : S → T → Prop
  /-- growth takes no knowledge away -/
  stable : ∀ {s s' t}, s ≤ s' → Knows s t → Knows s' t
  call : ∀ {s t l s' t'}, Sound s → Knows s t → M.call s t l = some (s', t') →
    Sound s' ∧ s ≤ s' ∧ Knows s' t'
  event : ∀ {s l s'}, Sound s → M.event s l = some s' → Sound s' ∧ s ≤ s'

variable {M} [Preorder S]

namespace Rely

variable (A : M.Rely) {σ τ : TaskState S T} {ls : List (TaskLabel L X)}
  {ok : TaskState S T → TaskLabel L X → Prop}

/-- The state is sound, and every task knows what it has to. -/
def Holds (σ : TaskState S T) : Prop := A.Sound σ.shared ∧ ∀ i, A.Knows σ.shared (σ.tasks i)

/-- One step, of any task or none. -/
theorem next (h : A.Holds σ) {l : TaskLabel L X} (hn : M.next σ l = some τ) :
    A.Holds τ ∧ σ.shared ≤ τ.shared := by
  obtain ⟨hsound, hknows⟩ := h
  cases l with
  | call i l =>
    obtain ⟨⟨s, t⟩, hcall, rfl⟩ := Option.map_eq_some_iff.mp hn
    obtain ⟨hsound', hle, ht⟩ := A.call hsound (hknows i) hcall
    refine ⟨⟨hsound', fun j => ?_⟩, hle⟩
    by_cases hj : j = i
    · subst hj
      simpa using ht
    · simpa [Function.update_of_ne hj] using A.stable hle (hknows j)
  | event l =>
    obtain ⟨s, hevent, rfl⟩ := Option.map_eq_some_iff.mp hn
    obtain ⟨hsound', hle⟩ := A.event hsound hevent
    exact ⟨⟨hsound', fun j => A.stable hle (hknows j)⟩, hle⟩

/-- **Along a run** the state stays sound, and grows. -/
theorem reaches (h : A.Holds σ) (hr : Reaches M.next ok σ ls τ) :
    A.Holds τ ∧ σ.shared ≤ τ.shared := by
  refine hr.invariant (P := fun τ => A.Holds τ ∧ σ.shared ≤ τ.shared) ⟨h, le_rfl⟩ ?_
  rintro τ l τ' ⟨hτ, hle⟩ - hn
  obtain ⟨hτ', hle'⟩ := A.next hτ hn
  exact ⟨hτ', hle.trans hle'⟩

end Rely

end TaskMachine

end RatelPlatform
