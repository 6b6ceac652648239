import RatelPlatform.Transaction

/-!
# Transactions that meet at a lock

A transaction *enters* under a row lock when the first thing it writes takes that lock;
before that it only looks. As a lock is held to the end of the transaction, of the
transactions that enter under one lock only one at a time has written anything, and
nobody commits in between: from its first write on a transaction runs as if alone.

So whatever each of them does alone to the state its first write sees (`Tx.Enters`), an
invariant that survives it holds of every committed state
(`System.exclusive_invariant`), in whichever order they begin, end or die.
-/

namespace RatelPlatform

variable {D K E : Type} {α β : Type}

namespace Tx

/-! ## Looking -/

/-- The program writes nothing, and its result satisfies `Q` whatever it sees. -/
def Looks (Q : α → Prop) : Tx D K E α → Prop
  | ret a => Q a
  | fail _ => True
  | read _ k => ∀ b, (k b).Looks Q
  | write _ _ _ => False

variable {Q Q' : α → Prop}

@[simp] theorem looks_ret {a : α} : (ret a : Tx D K E α).Looks Q ↔ Q a := Iff.rfl

@[simp] theorem looks_select {sel : D → α} : (select sel : Tx D K E α).Looks Q ↔ ∀ a, Q a := Iff.rfl

@[simp] theorem looks_bind {m : Tx D K E α} {g : α → Tx D K E β} {Q : β → Prop} :
    (m >>= g).Looks Q ↔ m.Looks fun a => (g a).Looks Q := by
  change (m.bind g).Looks Q ↔ _
  induction m with
  | ret a => rfl
  | fail e => rfl
  | read sel k ih => exact forall_congr' ih
  | write locks f k ih => rfl

@[simp] theorem looks_require {c : Prop} [Decidable c] {e : E} {Q : Unit → Prop} :
    (require c e : Tx D K E Unit).Looks Q ↔ (c → Q ()) := by
  simp only [require]
  split_ifs with h
  · exact (imp_iff_right h).symm
  · exact (iff_true_right fun hc => absurd hc h).mpr trivial

@[simp] theorem looks_orFail {o : Option α} {e : E} :
    (orFail o e : Tx D K E α).Looks Q ↔ ∀ a, o = some a → Q a := by
  rcases o with _ | a
  · simp [orFail, Looks]
  · simp [orFail]

/-! ## Entering -/

/-- The first write takes the lock, and alone the transaction makes `G` of the state
that write sees. -/
def Enters (lock : K) (G : D → D → Prop) : Tx D K E α → Prop
  | ret _ => False
  | fail _ => True
  | read _ k => ∀ b, (k b).Enters lock G
  | write locks f k => ∀ d, lock ∈ locks d ∧
      ∀ a d', (write locks f k).solo d = .ok (a, d') → G d d'

variable {lock : K} {G : D → D → Prop}

/-- Looking first. -/
theorem Looks.enters {m : Tx D K E α} {g : α → Tx D K E β}
    (h : m.Looks fun a => (g a).Enters lock G) : (m >>= g).Enters lock G := by
  change (m.bind g).Enters lock G
  induction m with
  | ret a => exact h
  | fail e => trivial
  | read sel k ih => exact fun b => ih b (h b)
  | write locks f k ih => exact h.elim

/-- Alone, it does nothing else. -/
theorem Enters.solo {m : Tx D K E α} {d d' : D} {a : α} (h : m.Enters lock G)
    (hok : m.solo d = .ok (a, d')) : G d d' := by
  induction m with
  | ret a' => exact h.elim
  | fail e => cases hok
  | read sel k ih => exact ih _ (h _) hok
  | write locks f k _ => exact (h d).2 a d' hok

end Tx

namespace System

variable [DecidableEq K] {lock : K} {G : ℕ → D → D → Prop} {σ σ' : System D K E α} {turn : Turn}

/-- Going on alone from what is committed and written makes `G` of what is committed. -/
def GoesOn (G : D → D → Prop) (db : D) (rest : Tx D K E α) (patch : D → D) : Prop :=
  ∀ a d', rest.solo (patch db) = .ok (a, d') → G db d'

/-- A running session has written nothing yet, or it holds the lock and goes on alone. -/
def Exclusive (lock : K) (G : ℕ → D → D → Prop) (σ : System D K E α) : Prop :=
  ∀ i rest patch current, σ.sessions i = .running rest patch current →
    (patch = id ∧ rest.Enters lock (G i)) ∨ (σ.holder lock = some i ∧ GoesOn (G i) σ.db rest patch)

omit [DecidableEq K] in
/-- A session that ends leaves the others where they are. -/
theorem Exclusive.finish (h : Exclusive lock G σ) (i : ℕ) {outcome : Session D K E α}
    (hended : ∀ rest patch current, outcome ≠ .running rest patch current) :
    Exclusive lock G (σ.finish i outcome) := by
  intro j rest patch current hj
  obtain ⟨-, hrunning⟩ | ⟨hne, hj⟩ := running_update hj
  · exact absurd hrunning (hended _ _ _)
  · refine (h j _ _ _ hj).imp_right fun hwriting => ⟨?_, hwriting.2⟩
    exact finish_holder outcome hwriting.1 hne

omit [DecidableEq K] in
/-- A session that goes on keeps the others where they are. -/
theorem Exclusive.update (h : Exclusive lock G σ) {i : ℕ} {rest : Tx D K E α} {patch : D → D}
    {current : D → Prop} (hdb : σ'.db = σ.db)
    (hsessions : σ'.sessions = Function.update σ.sessions i (.running rest patch current))
    (hholder : ∀ j, j ≠ i → σ.holder lock = some j → σ'.holder lock = some j)
    (hi : (patch = id ∧ rest.Enters lock (G i)) ∨
      (σ'.holder lock = some i ∧ GoesOn (G i) σ.db rest patch)) :
    Exclusive lock G σ' := by
  intro j rest₁ patch₁ current₁ hj
  rw [hsessions] at hj
  rw [hdb]
  obtain ⟨rfl, hrunning⟩ | ⟨hne, hj⟩ := running_update hj
  · cases hrunning
    exact hi
  · exact (h j _ _ _ hj).imp_right fun hwriting => ⟨hholder j hne hwriting.1, hwriting.2⟩

/-- **One turn**: what is committed stays, or becomes what the session that commits
makes of it. -/
theorem Exclusive.next (h : Exclusive lock G σ) (hn : σ.next turn = some σ') :
    Exclusive lock G σ' ∧ ((σ'.db = σ.db ∧ σ'.log = σ.log) ∨
      ∃ i, G i σ.db σ'.db ∧ σ'.log = σ.log ++ [i]) := by
  cases took_of_next hn with
  | killed _ => exact ⟨h.finish _ (by simp), .inl ⟨rfl, rfl⟩⟩
  | failed _ => exact ⟨h.finish _ (by simp), .inl ⟨rfl, rfl⟩⟩
  | violated _ _ _ => exact ⟨h.finish _ (by simp), .inl ⟨rfl, rfl⟩⟩
  | @committed i a patch current hi =>
    rcases h i _ _ _ hi with ⟨-, hlooking⟩ | ⟨hholds, hgoes⟩
    · exact hlooking.elim
    · refine ⟨?_, .inr ⟨i, hgoes a _ rfl, rfl⟩⟩
      -- nobody else has written anything
      intro j rest₁ patch₁ current₁ hj
      obtain ⟨-, hrunning⟩ | ⟨hne, hj⟩ := running_update hj
      · cases hrunning
      · refine (h j _ _ _ hj).imp_right fun hwriting => ?_
        exact absurd (Option.some.inj (hwriting.1.symm.trans hholds)) hne
  | @read i β sel k patch current hi =>
    refine ⟨h.update rfl rfl (fun _ _ hj => hj) ?_, .inl ⟨rfl, rfl⟩⟩
    exact (h i _ _ _ hi).imp (fun hlooking => ⟨hlooking.1, hlooking.2 _⟩) fun hwriting => hwriting
  | @wrote i β locks f k patch q current b hi hfree hf =>
    refine ⟨h.update rfl rfl (fun j hne hj => hfree.holder hne hj) ?_, .inl ⟨rfl, rfl⟩⟩
    have hsolo : (Tx.write locks f k).solo (patch σ.db) = (k b).solo (q (patch σ.db)) := by
      rw [Tx.solo, hf]
    refine .inr ?_
    rcases h i _ _ _ hi with ⟨rfl, hlooking⟩ | ⟨hholds, hgoes⟩
    · obtain ⟨hlock, hgoes⟩ := hlooking σ.db
      exact ⟨if_pos hlock, fun a d' hok => hgoes a d' (hsolo.trans hok)⟩
    · refine ⟨?_, fun a d' hok => hgoes a d' (hsolo.trans hok)⟩
      simp only [hholds]
      split_ifs <;> rfl

/-- **The invariant rule for transactions that enter under one lock**: what survives
the effect of each of them, whenever it takes place, holds of what is committed. -/
theorem exclusive_invariant {programs : ℕ → Tx D K E α} {d₀ : D}
    {ok : System D K E α → Turn → Prop} {turns : List Turn} {P : List ℕ → D → Prop}
    (h₀ : P [] d₀) (hprograms : ∀ i, (programs i).Enters lock (G i))
    (hstep : ∀ log d i d', i ∉ log → P log d → G i d d' → P (log ++ [i]) d')
    (hr : Reaches System.next ok (init d₀ programs) turns σ) : P σ.log σ.db := by
  have hinv : Exclusive lock G σ ∧ P σ.log σ.db := by
    refine hr.invariant_along (P := fun _ σ => Exclusive lock G σ ∧ P σ.log σ.db) ?_ ?_
    · refine ⟨fun i rest patch current hi => ?_, h₀⟩
      cases hi
      exact .inl ⟨rfl, hprograms i⟩
    · rintro turns σ turn σ' hr ⟨hexclusive, hP⟩ hok hn
      obtain ⟨hexclusive', ⟨hdb, hlog⟩ | ⟨i, hG, hlog⟩⟩ := hexclusive.next hn
      · rw [hdb, hlog]
        exact ⟨hexclusive', hP⟩
      · have hnodup := log_nodup (hr.snoc hok hn)
        rw [hlog, List.nodup_append] at hnodup
        have hnew : i ∉ σ.log := fun hi => hnodup.2.2 i hi i (List.mem_singleton_self i) rfl
        rw [hlog]
        exact ⟨hexclusive', hstep _ _ _ _ hnew hP hG⟩
  exact hinv.2

end System

end RatelPlatform
