import RatelPlatform.CriticalSection

/-!
# One transaction on two states

To show that a transaction does not depend on a part of the state, it is run alone on two
states that differ in that part. `m.Relates P Q` says that on two states related by `P` it
fails with the same error, or succeeds with the same result in states related by `Q`. The
rules are those of a Hoare logic, one for each way to build a program.

Where some labels of a machine are related so, and the others leave a state related to what it
was related to, a run can be purged of the others (`Reaches.purge`).
-/

namespace RatelPlatform

variable {D K E : Type} {α β : Type}

namespace Tx

/-- Two fallible steps fail with the same error, or both succeed. -/
def Both {β γ : Type} (R : β → γ → Prop) : Except E β → Except E γ → Prop
  | .ok b, .ok c => R b c
  | .error e, .error e' => e = e'
  | _, _ => False

theorem Both.mono {β γ : Type} {R R' : β → γ → Prop} {x : Except E β} {y : Except E γ}
    (h : Both R x y) (himp : ∀ b c, R b c → R' b c) : Both R' x y := by
  rcases x with e | b <;> rcases y with e' | c
  · exact h
  · exact h
  · exact h
  · exact himp b c h

/-- From states related by `P`, the same error, or the same result in states related by `Q`. -/
def Relates (P : D → D → Prop) (m : Tx D K E α) (Q : α → D → D → Prop) : Prop :=
  ∀ d d', P d d' → Both (fun r r' => r.1 = r'.1 ∧ Q r.1 r.2 r'.2) (m.solo d) (m.solo d')

variable {P P' : D → D → Prop} {Q Q' : α → D → D → Prop}

/-- The rule of consequence. -/
theorem Relates.mono {m : Tx D K E α} (h : m.Relates P Q) (hP : ∀ d d', P' d d' → P d d')
    (hQ : ∀ a d d', Q a d d' → Q' a d d') : m.Relates P' Q' :=
  fun d d' hd => (h d d' (hP d d' hd)).mono fun _ _ hr => ⟨hr.1, hQ _ _ _ hr.2⟩

theorem relates_ret {a : α} (h : ∀ d d', P d d' → Q a d d') :
    (ret a : Tx D K E α).Relates P Q := fun d d' hd => ⟨rfl, h d d' hd⟩

theorem relates_fail {e : E} : (fail e : Tx D K E α).Relates P Q := fun _ _ _ => rfl

/-- A part that fails. -/
theorem solo_bind_of_error {m : Tx D K E α} {g : α → Tx D K E β} {d : D} {e : E}
    (h : m.solo d = .error e) : (m >>= g).solo d = .error e := by
  change (m.bind g).solo d = _
  induction m generalizing d with
  | ret a => cases h
  | fail e' =>
    cases h
    rfl
  | read sel k ih => exact ih _ h
  | write locks f k ih =>
    simp only [Tx.bind, solo] at h ⊢
    rcases hf : f d with e' | ⟨b, patch⟩
    · rw [hf] at h
      cases h
      rfl
    · rw [hf] at h
      exact ih b h

/-- **Sequencing.** -/
theorem Relates.bind {m : Tx D K E α} {g : α → Tx D K E β} {R : β → D → D → Prop}
    (h : m.Relates P Q) (hg : ∀ a, (g a).Relates (Q a) R) : (m >>= g).Relates P R := by
  intro d d' hd
  have hm := h d d' hd
  rcases hs : m.solo d with e | ⟨a, d₁⟩ <;> rcases hs' : m.solo d' with e' | ⟨a', d₁'⟩
  · rw [hs, hs'] at hm
    obtain rfl : e = e' := hm
    rw [solo_bind_of_error hs, solo_bind_of_error hs']
    rfl
  · rw [hs, hs'] at hm
    exact hm.elim
  · rw [hs, hs'] at hm
    exact hm.elim
  · rw [hs, hs'] at hm
    obtain ⟨rfl, hQ⟩ : a = a' ∧ Q a d₁ d₁' := hm
    rw [solo_bind_of_ok hs, solo_bind_of_ok hs']
    exact hg a d₁ d₁' hQ

/-- A `SELECT` that sees the same in both states. -/
theorem relates_select {sel : D → α} (hsel : ∀ d d', P d d' → sel d = sel d')
    (hQ : ∀ d d', P d d' → Q (sel d) d d') : (select sel : Tx D K E α).Relates P Q :=
  fun d d' hd => ⟨hsel d d' hd, hQ d d' hd⟩

theorem relates_require {c : Prop} [Decidable c] {e : E} {Q : Unit → D → D → Prop}
    (h : ∀ d d', c → P d d' → Q () d d') : (require c e : Tx D K E Unit).Relates P Q := by
  simp only [require]
  split_ifs with hc
  · exact relates_ret fun d d' => h d d' hc
  · exact relates_fail

theorem relates_orFail {o : Option α} {e : E} (h : ∀ a d d', o = some a → P d d' → Q a d d') :
    (orFail o e : Tx D K E α).Relates P Q := by
  rcases o with _ | a
  · exact relates_fail
  · exact relates_ret fun d d' => h a d d' rfl

theorem relates_ofExcept {x : Except E α} (h : ∀ a d d', x = .ok a → P d d' → Q a d d') :
    (ofExcept x : Tx D K E α).Relates P Q := by
  rcases x with e | a
  · exact relates_fail
  · exact relates_ret fun d d' => h a d d' rfl

/-- A write: its constraints say the same in both states, and what it does keeps them
related. -/
theorem relates_write {locks : D → List K} {f : D → Except E (α × (D → D))}
    (h : ∀ d d', P d d' → Both (fun r r' => r.1 = r'.1 ∧ Q r.1 (r.2 d) (r'.2 d')) (f d) (f d')) :
    (write locks f ret : Tx D K E α).Relates P Q := by
  intro d d' hd
  have hf := h d d' hd
  simp only [solo]
  rcases hs : f d with e | ⟨a, p⟩ <;> rcases hs' : f d' with e' | ⟨a', p'⟩ <;> rw [hs, hs'] at hf
  · exact hf
  · exact hf
  · exact hf
  · exact hf

theorem relates_exec {locks : D → List K} {f : D → Except E (D → D)} {Q : Unit → D → D → Prop}
    (h : ∀ d d', P d d' → Both (fun p p' => Q () (p d) (p' d')) (f d) (f d')) :
    (exec locks f : Tx D K E Unit).Relates P Q := by
  refine relates_write fun d d' hd => ?_
  have hf := h d d' hd
  rcases hs : f d with e | p <;> rcases hs' : f d' with e' | p' <;> rw [hs, hs'] at hf
  · exact hf
  · exact hf
  · exact hf
  · exact ⟨rfl, hf⟩

theorem Relates.discard {m : Tx D K E α} {Q : Unit → D → D → Prop}
    (h : m.Relates P fun _ => Q ()) : m.discard.Relates P Q :=
  h.bind fun _ => relates_ret fun _ _ h => h

/-- Looking leaves both states as they are. -/
theorem Looks.solo_state {m : Tx D K E α} {R : α → Prop} (h : m.Looks R) {d d₁ : D} {a : α}
    (hok : m.solo d = .ok (a, d₁)) : R a ∧ d₁ = d := by
  induction m with
  | ret a' =>
    cases hok
    exact ⟨h, rfl⟩
  | fail e => cases hok
  | read sel k ih => exact ih _ (h _) hok
  | write locks f k ih => exact h.elim

/-- What is related stays related while one looks. -/
theorem Relates.keep {m : Tx D K E α} {R : α → Prop} (h : m.Relates P Q) (hlooks : m.Looks R) :
    m.Relates P fun a d d' => Q a d d' ∧ R a ∧ P d d' := by
  intro d d' hd
  have hm := h d d' hd
  rcases hs : m.solo d with e | ⟨a, d₁⟩ <;> rcases hs' : m.solo d' with e' | ⟨a', d₁'⟩
  · rwa [hs, hs'] at hm
  · rwa [hs, hs'] at hm
  · rwa [hs, hs'] at hm
  · rw [hs, hs'] at hm
    obtain ⟨hR, rfl⟩ := hlooks.solo_state hs
    obtain ⟨-, rfl⟩ := hlooks.solo_state hs'
    exact ⟨hm.1, hm.2, hR, hd⟩

/-! ### Going on with a result -/

variable {R : β → D → D → Prop} {S T : D → D → Prop} {φ : α → Prop}

/-- What is known of the result alone is known of the program that goes on with it. -/
theorem Relates.then {m : Tx D K E α} {g : α → Tx D K E β}
    (h : m.Relates P fun a d d' => φ a ∧ S d d') (hg : ∀ a, φ a → (g a).Relates S R) :
    (m >>= g).Relates P R :=
  h.bind fun a d d' hd => hg a hd.1 d d' hd.2

/-- Going on after a look. -/
theorem Relates.look {m : Tx D K E α} {g : α → Tx D K E β}
    (h : m.Relates T fun _ _ _ => True) (hlooks : m.Looks φ) (hS : ∀ d d', S d d' → T d d')
    (hg : ∀ a, φ a → (g a).Relates S R) : (m >>= g).Relates S R :=
  ((h.mono hS fun _ _ _ h => h).keep hlooks |>.mono (fun _ _ h => h) fun _ _ _ h => h.2).then hg

theorem Relates.ofExcept {x : Except E α} {g : α → Tx D K E β}
    (hg : ∀ a, x = .ok a → (g a).Relates P R) : (Tx.ofExcept x >>= g).Relates P R :=
  Relates.then (relates_ofExcept fun _ _ _ hx hd => ⟨hx, hd⟩) hg

theorem Relates.orFail {o : Option α} {e : E} {g : α → Tx D K E β}
    (hg : ∀ a, o = some a → (g a).Relates P R) : (Tx.orFail o e >>= g).Relates P R :=
  Relates.then (relates_orFail fun _ _ _ ho hd => ⟨ho, hd⟩) hg

theorem Relates.require {c : Prop} [Decidable c] {e : E} {g : Unit → Tx D K E β}
    (hg : (g ()).Relates P R) : (Tx.require c e >>= g).Relates P R :=
  (relates_require fun _ _ _ hd => hd).bind fun _ => hg

end Tx

/-! ### Runs without some of their labels -/

/-- **Purging a run**: the labels that are kept step alike in related states, and the others
make no difference. -/
theorem Reaches.purge {σ ι : Type} {next : σ → ι → Option σ} {s t : σ} {ls : List ι}
    {S : σ → σ → Prop} {P : ι → Prop} [DecidablePred P] (h₀ : S s s)
    (hkeep : ∀ ls t i u t', Reaches next (fun _ _ => True) s ls t → S t t' → P i →
      next t i = some u → ∃ u', next t' i = some u' ∧ S u u')
    (hdrop : ∀ ls t i u t', Reaches next (fun _ _ => True) s ls t → S t t' → ¬ P i →
      next t i = some u → S u t')
    (hr : Reaches next (fun _ _ => True) s ls t) :
    ∃ t', Reaches next (fun _ _ => True) s (ls.filter P) t' ∧ S t t' := by
  induction hr with
  | nil => exact ⟨s, .nil, h₀⟩
  | @snoc ls t u i hr _ hn ih =>
    obtain ⟨t', hr', hS⟩ := ih
    rw [List.filter_append]
    by_cases hi : P i
    · obtain ⟨u', hn', hS'⟩ := hkeep ls t i u t' hr hS hi hn
      refine ⟨u', ?_, hS'⟩
      rw [List.filter_cons_of_pos (p := fun i => P i) (decide_eq_true hi), List.filter_nil]
      exact hr'.snoc trivial hn'
    · refine ⟨t', ?_, hdrop ls t i u t' hr hS hi hn⟩
      rw [List.filter_cons_of_neg (p := fun i => P i) (by simpa using hi), List.filter_nil, List.append_nil]
      exact hr'

end RatelPlatform
