import RatelPlatform.Reach

/-!
# Relays

Some groups have a baton each, and a group goes on as long as someone holds its baton. Where a
baton is only ever taken over from the one who gives it away, or is the first of a new group, no
group has two holders at once (`Relay.unique`), and a group whose baton has been dropped never
has a holder again (`Relay.dropped`).
-/

namespace RatelPlatform

universe u v

variable {σ : Type u} {ι : Type v} {G H : Type}

/-- From one state to the next, at most one holder gives a baton away, and at most one takes over
from it or starts a new group. -/
def PassesOn (holds holds' : G → H → Prop) (known : G → Prop) : Prop :=
  ∃ (gives : Option H) (takes : H), ∀ g x, holds' g x →
    (holds g x ∧ x ∉ gives) ∨ (x = takes ∧ (¬ known g ∨ ∃ y ∈ gives, holds g y))

/-- One holder a group, at most. -/
def OneHolder (holds : G → H → Prop) : Prop := ∀ g x y, holds g x → holds g y → x = y

namespace PassesOn

variable {holds holds' : G → H → Prop} {known : G → Prop}

/-- Nobody takes a baton. -/
theorem of_imp (takes : H) (h : ∀ g x, holds' g x → holds g x) : PassesOn holds holds' known :=
  ⟨none, takes, fun g x hx => .inl ⟨h g x hx, nofun⟩⟩

/-- A new group. -/
theorem of_new (takes : H)
    (h : ∀ g x, holds' g x → holds g x ∨ (x = takes ∧ ¬ known g)) : PassesOn holds holds' known :=
  ⟨none, takes, fun g x hx => (h g x hx).imp (fun hold => ⟨hold, nofun⟩)
    fun hnew => ⟨hnew.1, .inl hnew.2⟩⟩

/-- One holder gives its baton to another one. -/
theorem of_pass (gives takes : H)
    (h : ∀ g x, holds' g x → (holds g x ∧ x ≠ gives) ∨ (x = takes ∧ holds g gives)) :
    PassesOn holds holds' known := by
  refine ⟨some gives, takes, fun g x hx => (h g x hx).imp (fun hold => ⟨hold.1, ?_⟩) ?_⟩
  · exact fun hmem => hold.2 (Option.some.inj hmem).symm
  · exact fun htaken => ⟨htaken.1, .inr ⟨gives, rfl, htaken.2⟩⟩

theorem oneHolder (h : PassesOn holds holds' known) (hknown : ∀ g x, holds g x → known g)
    (hone : OneHolder holds) : OneHolder holds' := by
  obtain ⟨gives, takes, hpasses⟩ := h
  -- a holder that keeps its baton is the only one of its group
  have hkeeps : ∀ g x y, holds g x → x ∉ gives → (¬ known g ∨ ∃ z ∈ gives, holds g z) → x = y := by
    intro g x y hx hgives htaken
    rcases htaken with hnew | ⟨z, hz, hgz⟩
    · exact absurd (hknown g x hx) hnew
    · exact absurd (hone g x z hx hgz ▸ hz) hgives
  intro g x y hx hy
  rcases hpasses g x hx with ⟨hx, hgx⟩ | ⟨rfl, hx⟩ <;>
    rcases hpasses g y hy with ⟨hy, hgy⟩ | ⟨rfl, hy⟩
  · exact hone g x y hx hy
  · exact hkeeps g x y hx hgx hy
  · exact (hkeeps g y x hy hgy hx).symm
  · rfl

theorem dropped (h : PassesOn holds holds' known) {g : G} (hg : known g)
    (hnone : ∀ x, ¬ holds g x) (x : H) : ¬ holds' g x := by
  obtain ⟨gives, takes, hpasses⟩ := h
  intro hx
  rcases hpasses g x hx with ⟨hx, -⟩ | ⟨-, hnew | ⟨y, -, hy⟩⟩
  · exact hnone x hx
  · exact hnew hg
  · exact hnone y hy

end PassesOn

/-- A machine whose every step passes batons on. -/
structure Relay (next : σ → ι → Option σ) (ok : σ → ι → Prop) (G H : Type) where
  Sound : σ → Prop
  Known : σ → G → Prop
  Holds : σ → G → H → Prop
  known : ∀ {s g x}, Sound s → Holds s g x → Known s g
  step : ∀ {s i t}, Sound s → ok s i → next s i = some t →
    Sound t ∧ (∀ g, Known s g → Known t g) ∧ PassesOn (Holds s) (Holds t) (Known s)

namespace Relay

variable {next : σ → ι → Option σ} {ok : σ → ι → Prop} (R : Relay next ok G H) {s t : σ}
  {is : List ι}

theorem sound (h : R.Sound s) (hr : Reaches next ok s is t) : R.Sound t :=
  hr.invariant h fun _ _ _ hs hok hn => (R.step hs hok hn).1

/-- **One holder a group**, in every state of a run. -/
theorem unique (h : R.Sound s) (hone : OneHolder (R.Holds s)) (hr : Reaches next ok s is t) :
    OneHolder (R.Holds t) := by
  refine (hr.invariant (P := fun s => R.Sound s ∧ OneHolder (R.Holds s)) ⟨h, hone⟩ ?_).2
  rintro s i t ⟨hs, hone⟩ hok hn
  obtain ⟨ht, -, hpasses⟩ := R.step hs hok hn
  exact ⟨ht, hpasses.oneHolder (fun _ _ => R.known hs) hone⟩

/-- **A baton that is dropped** is never picked up. -/
theorem dropped (h : R.Sound s) {g : G} (hg : R.Known s g) (hnone : ∀ x, ¬ R.Holds s g x)
    (hr : Reaches next ok s is t) (x : H) : ¬ R.Holds t g x := by
  refine (hr.invariant (P := fun s => R.Sound s ∧ R.Known s g ∧ ∀ x, ¬ R.Holds s g x)
    ⟨h, hg, hnone⟩ ?_).2.2 x
  rintro s i t ⟨hs, hg, hnone⟩ hok hn
  obtain ⟨ht, hknown, hpasses⟩ := R.step hs hok hn
  exact ⟨ht, hknown g hg, fun x => hpasses.dropped hg hnone x⟩

end Relay

end RatelPlatform
