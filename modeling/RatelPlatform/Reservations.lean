import RatelPlatform.CriticalSection
import RatelPlatform.Patches

/-!
# Transactions that reserve a key

A transaction *reserves* a key when the first thing it writes takes the lock of the
key and finds the key free; before that it only looks. Each transaction has a key of
its own choice, and transactions of different keys write side by side.

What its first write has found stays true until it commits: a transaction of the same
key has to wait for the lock, and one of another key leaves this one free
(`System.Reserved.next`).
-/

namespace RatelPlatform

variable {D K E : Type} {α β : Type}

namespace Tx

/-- In a state that satisfies `C`, the first write takes the lock and finds `S`, and all
that is written satisfies `W`. -/
def Reserves (lock : K) (C S : D → Prop) (W : (D → D) → Prop) : Tx D K E α → Prop
  | ret _ => False
  | fail _ => True
  | read _ k => ∀ b, (k b).Reserves lock C S W
  | write locks f k => ∀ d, C d → ∀ b q, f d = .ok (b, q) →
      lock ∈ locks d ∧ S d ∧ (k b).Patches (fun _ => W) q

variable {lock : K} {C S : D → Prop} {W : (D → D) → Prop}

/-- Looking first. -/
theorem Looks.reserves {m : Tx D K E α} {g : α → Tx D K E β}
    (h : m.Looks fun a => (g a).Reserves lock C S W) : (m >>= g).Reserves lock C S W := by
  change (m.bind g).Reserves lock C S W
  induction m with
  | ret a => exact h
  | fail e => trivial
  | read sel k ih => exact fun b => ih b (h b)
  | write locks f k ih => exact h.elim

/-- A write that returns nothing. -/
theorem reserves_exec {locks : D → List K} {f : D → Except E (D → D)} {g : Unit → Tx D K E β}
    (h : ∀ d, C d → ∀ q, f d = .ok q → lock ∈ locks d ∧ S d ∧ (g ()).Patches (fun _ => W) q) :
    (exec locks f >>= g).Reserves lock C S W := by
  intro d hC b q hf
  rcases hd : f d with e | q'
  · simp [hd, Except.map] at hf
  · simp only [hd, Except.map, Except.ok.injEq, Prod.mk.injEq] at hf
    obtain ⟨-, rfl⟩ := hf
    exact h d hC _ hd

/-- **Alone**: what is written in the end, to a state in which the key was free. -/
theorem Patches.solo {Q : α → (D → D) → Prop} {m : Tx D K E α} {p : D → D} {d d' : D} {a : α}
    (h : m.Patches Q p) (hok : m.solo (p d) = .ok (a, d')) : ∃ p', Q a p' ∧ d' = p' d := by
  induction m generalizing p with
  | ret a' =>
    cases hok
    exact ⟨p, h, rfl⟩
  | fail e => cases hok
  | read sel k ih => exact ih _ (h _) hok
  | write locks f k ih =>
    rw [Tx.solo] at hok
    split at hok
    · cases hok
    · next b q hf => exact ih b (h _ _ _ hf) hok

theorem Reserves.solo {m : Tx D K E α} {d d' : D} {a : α} (h : m.Reserves lock C S W) (hC : C d)
    (hok : m.solo d = .ok (a, d')) : S d ∧ ∃ p, W p ∧ d' = p d := by
  induction m with
  | ret a' => exact h.elim
  | fail e => cases hok
  | read sel k ih => exact ih _ (h _) hok
  | write locks f k _ =>
    rw [Tx.solo] at hok
    split at hok
    · cases hok
    · next b q hf =>
      obtain ⟨-, hS, hwrites⟩ := h d hC b q hf
      exact ⟨hS, hwrites.solo hok⟩

end Tx

namespace System

variable [DecidableEq K] {lock : ℕ → K} {C S : ℕ → D → Prop} {W : ℕ → (D → D) → Prop}
  {σ σ' : System D K E α} {turn : Turn}

/-- A running session has written nothing yet, or it holds the lock of its key, which is
still free in what is committed. -/
def Reserved (lock : ℕ → K) (C S : ℕ → D → Prop) (W : ℕ → (D → D) → Prop)
    (σ : System D K E α) : Prop :=
  ∀ i rest patch current, σ.sessions i = .running rest patch current →
    (patch = id ∧ rest.Reserves (lock i) (C i) (S i) (W i)) ∨
      (σ.holder (lock i) = some i ∧ S i σ.db ∧ rest.Patches (fun _ => W i) patch)

/-- Session `i` commits `patch`. -/
structure Commits (σ σ' : System D K E α) (turn : Turn) (i : ℕ) (patch : D → D) : Prop where
  turn : turn = .step i
  running : ∃ a current, σ.sessions i = .running (.ret a) patch current
  db : σ'.db = patch σ.db
  log : σ'.log = σ.log ++ [i]

omit [DecidableEq K] in
theorem Reserved.finish (h : Reserved lock C S W σ) (i : ℕ) {outcome : Session D K E α}
    (hended : ∀ rest patch current, outcome ≠ .running rest patch current) :
    Reserved lock C S W (σ.finish i outcome) := by
  intro j rest patch current hj
  obtain ⟨-, hrunning⟩ | ⟨hne, hj⟩ := running_update hj
  · exact absurd hrunning (hended _ _ _)
  · refine (h j _ _ _ hj).imp_right fun hwriting => ⟨?_, hwriting.2⟩
    exact finish_holder outcome hwriting.1 hne

omit [DecidableEq K] in
/-- A session that goes on keeps the others where they are. -/
theorem Reserved.update (h : Reserved lock C S W σ) {i : ℕ} {rest : Tx D K E α} {patch : D → D}
    {current : D → Prop} (hdb : σ'.db = σ.db)
    (hsessions : σ'.sessions = Function.update σ.sessions i (.running rest patch current))
    (hholder : ∀ j, j ≠ i → σ.holder (lock j) = some j → σ'.holder (lock j) = some j)
    (hi : (patch = id ∧ rest.Reserves (lock i) (C i) (S i) (W i)) ∨
      (σ'.holder (lock i) = some i ∧ S i σ.db ∧ rest.Patches (fun _ => W i) patch)) :
    Reserved lock C S W σ' := by
  intro j rest₁ patch₁ current₁ hj
  rw [hsessions] at hj
  rw [hdb]
  obtain ⟨rfl, hrunning⟩ | ⟨hne, hj⟩ := running_update hj
  · cases hrunning
    exact hi
  · exact (h j _ _ _ hj).imp_right fun hwriting => ⟨hholder j hne hwriting.1, hwriting.2⟩

omit [DecidableEq K] in
/-- A commit leaves the keys of the others free. -/
theorem Reserved.commit (h : Reserved lock C S W σ)
    (hframe : ∀ i j d p, lock i ≠ lock j → W j p → S i d → S i (p d)) {i : ℕ} {patch : D → D}
    {a : α} (hholds : σ.holder (lock i) = some i) (hwrites : W i patch) (log : List ℕ) :
    Reserved lock C S W { σ.finish i (.committed a) with db := patch σ.db, log := log } := by
  intro j rest₁ patch₁ current₁ hj
  obtain ⟨-, hrunning⟩ | ⟨hne, hj⟩ := running_update hj
  · cases hrunning
  · refine (h j _ _ _ hj).imp_right ?_
    rintro ⟨hother, hfree, hpatches⟩
    refine ⟨?_, ?_, hpatches⟩
    · exact finish_holder (.committed a) hother hne
    · refine hframe j i σ.db patch (fun heq => ?_) hwrites hfree
      rw [heq] at hother
      exact hne (Option.some.inj (hother.symm.trans hholds))

/-- **One turn**: what is committed stays, or a session commits that has found its key
free, and it is still free. -/
theorem Reserved.next (h : Reserved lock C S W σ)
    (hC : ∀ i rest patch current, σ.sessions i = .running rest patch current → C i σ.db)
    (hframe : ∀ i j d p, lock i ≠ lock j → W j p → S i d → S i (p d))
    (hn : σ.next turn = some σ') :
    Reserved lock C S W σ' ∧ ((σ'.db = σ.db ∧ σ'.log = σ.log) ∨
      ∃ i patch, Commits σ σ' turn i patch ∧ S i σ.db ∧ W i patch) := by
  cases took_of_next hn with
  | killed _ => exact ⟨h.finish _ (by simp), .inl ⟨rfl, rfl⟩⟩
  | failed _ => exact ⟨h.finish _ (by simp), .inl ⟨rfl, rfl⟩⟩
  | violated _ _ _ => exact ⟨h.finish _ (by simp), .inl ⟨rfl, rfl⟩⟩
  | @committed i a patch current hi =>
    rcases h i _ _ _ hi with ⟨-, hlooking⟩ | ⟨hholds, hfree, hwrites⟩
    · exact hlooking.elim
    · exact ⟨h.commit hframe hholds hwrites _,
        .inr ⟨i, patch, ⟨rfl, ⟨a, current, hi⟩, rfl, rfl⟩, hfree, hwrites⟩⟩
  | @read i β sel k patch current hi =>
    refine ⟨h.update rfl rfl (fun _ _ hj => hj) ?_, .inl ⟨rfl, rfl⟩⟩
    exact (h i _ _ _ hi).imp (fun hlooking => ⟨hlooking.1, hlooking.2 _⟩)
      fun hwriting => ⟨hwriting.1, hwriting.2.1, hwriting.2.2 _⟩
  | @wrote i β locks f k patch q current b hi hfree hf =>
    refine ⟨h.update rfl rfl (fun j hne hj => hfree.holder hne hj) (.inr ?_), .inl ⟨rfl, rfl⟩⟩
    rcases h i _ _ _ hi with ⟨rfl, hlooking⟩ | ⟨hholds, hS, hwrites⟩
    · obtain ⟨hlock, hS, hwrites⟩ := hlooking σ.db (hC i _ _ _ hi) b q hf
      exact ⟨if_pos hlock, hS, hwrites⟩
    · refine ⟨?_, hS, hwrites _ _ _ hf⟩
      simp only [hholds]
      split_ifs <;> rfl

end System

end RatelPlatform
