import RatelPlatform.CriticalSection
import RatelPlatform.Patches

/-!
# What every statement writes

`m.Writes W`: each write of the transaction makes a change of the kind `W`, whatever the
statements before it have seen. Where changes of the kind compose, a commit makes one, in
every interleaving (`System.AllWrite.next`).
-/

namespace RatelPlatform

variable {D K E : Type} {α β : Type}

namespace Tx

/-- Every write makes a change of the kind. -/
def Writes (W : (D → D) → Prop) : Tx D K E α → Prop
  | ret _ => True
  | fail _ => True
  | read _ k => ∀ b, (k b).Writes W
  | write _ f k => ∀ d b q, f d = .ok (b, q) → W q ∧ (k b).Writes W

variable {W : (D → D) → Prop}

theorem Writes.ret {a : α} : (Tx.ret a : Tx D K E α).Writes W := trivial

theorem Writes.bind {m : Tx D K E α} {g : α → Tx D K E β} (hm : m.Writes W)
    (hg : ∀ a, (g a).Writes W) : (m >>= g).Writes W := by
  change (m.bind g).Writes W
  induction m with
  | ret a => exact hg a
  | fail e => trivial
  | read sel k ih => exact fun b => ih b (hm b)
  | write locks f k ih =>
    intro d b q hf
    obtain ⟨hq, hrest⟩ := hm d b q hf
    exact ⟨hq, ih b hrest⟩

/-- Looking writes nothing. -/
theorem Looks.writes {Q : α → Prop} {m : Tx D K E α} (h : m.Looks Q) : m.Writes W := by
  induction m with
  | ret a => trivial
  | fail e => trivial
  | read sel k ih => exact fun b => ih b (h b)
  | write locks f k ih => exact h.elim

theorem Writes.select {sel : D → α} : (Tx.select sel : Tx D K E α).Writes W := fun _ => trivial

theorem Writes.require {c : Prop} [Decidable c] {e : E} :
    (Tx.require c e : Tx D K E Unit).Writes W := by
  simp only [Tx.require]
  split_ifs
  · trivial
  · trivial

theorem Writes.orFail {o : Option α} {e : E} : (Tx.orFail o e : Tx D K E α).Writes W := by
  cases o with
  | none => trivial
  | some a => trivial

theorem Writes.ofExcept {x : Except E α} : (Tx.ofExcept x : Tx D K E α).Writes W := by
  cases x with
  | error e => trivial
  | ok a => trivial

theorem Writes.discard {m : Tx D K E α} (h : m.Writes W) : m.discard.Writes W :=
  h.bind fun _ => .ret

theorem Writes.exec {locks : D → List K} {f : D → Except E (D → D)}
    (h : ∀ d q, f d = .ok q → W q) : (Tx.exec locks f : Tx D K E Unit).Writes W := by
  intro d b q hf
  rcases hd : f d with e | q'
  · simp [hd, Except.map] at hf
  · simp only [hd, Except.map, Except.ok.injEq, Prod.mk.injEq] at hf
    obtain ⟨-, rfl⟩ := hf
    exact ⟨h d _ hd, trivial⟩

/-- What follows a statement that succeeds. -/
theorem Writes.advance (hcomp : ∀ p q, W p → W q → W fun d => q (p d)) {m m' : Tx D K E α}
    {p p' : D → D} {d : D} (h : m.Writes W) (hp : W p) (hadvance : Advance d m p m' p') :
    m'.Writes W ∧ W p' := by
  cases hadvance with
  | read => exact ⟨h _, hp⟩
  | write hf =>
    obtain ⟨hq, hrest⟩ := h _ _ _ hf
    exact ⟨hrest, hcomp _ _ hp hq⟩

end Tx

namespace System

variable [DecidableEq K] {W : (D → D) → Prop} {programs : ℕ → Tx D K E α} {d₀ : D}
  {σ σ' : System D K E α} {turn : Turn}

/-- Every running session has made, and will make, changes of the kind. -/
def AllWrite (W : (D → D) → Prop) (σ : System D K E α) : Prop :=
  ∀ i rest patch current, σ.sessions i = .running rest patch current → rest.Writes W ∧ W patch

omit [DecidableEq K] in
theorem AllWrite.init (hid : W id) (hprograms : ∀ i, (programs i).Writes W) :
    AllWrite W (init d₀ programs) := by
  intro i rest patch current hi
  cases hi
  exact ⟨hprograms i, hid⟩

/-- **One turn** keeps what is committed, or changes it by one of the kind. -/
theorem AllWrite.next (hcomp : ∀ p q, W p → W q → W fun d => q (p d)) (h : AllWrite W σ)
    (hn : σ.next turn = some σ') :
    AllWrite W σ' ∧ (σ'.db = σ.db ∨ ∃ patch, W patch ∧ σ'.db = patch σ.db) := by
  obtain ⟨i, rest, patch, current, hi, -, hcases⟩ := next_advance hn
  obtain ⟨hrest, hpatch⟩ := h i rest patch current hi
  -- the other sessions stay as they are
  have hothers : ∀ outcome, (∀ rest patch current, outcome = .running rest patch current →
      rest.Writes W ∧ W patch) → σ'.sessions = Function.update σ.sessions i outcome →
      AllWrite W σ' := by
    intro outcome hself hsessions j rest₁ patch₁ current₁ hj
    rw [hsessions] at hj
    obtain ⟨-, hrunning⟩ | ⟨-, hj⟩ := running_update hj
    · exact hself _ _ _ hrunning
    · exact h j _ _ _ hj
  rcases hcases with ⟨hdb, -, hs⟩ | ⟨a, -, -, hdb, -, hs⟩ |
    ⟨-, rest', patch', current', hadvance, hdb, -, hs⟩
  · exact ⟨hothers _ (by simp) hs, .inl hdb⟩
  · exact ⟨hothers _ (by simp) hs, .inr ⟨patch, hpatch, hdb⟩⟩
  · refine ⟨hothers _ ?_ hs, .inl hdb⟩
    rintro _ _ _ ⟨⟩
    exact hrest.advance hcomp hpatch hadvance

end System

end RatelPlatform
