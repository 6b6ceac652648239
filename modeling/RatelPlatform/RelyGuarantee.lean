import RatelPlatform.Patches
import Mathlib.Data.Set.Lattice

/-!
# Transactions that rely on their locks

A protocol says what is always true of the committed state, and what a transaction may
rely on while it holds locks: how the commits of the others may change that state. A
transaction *follows* it when what it learns from its statements stays true whatever the
others do (`Protocol.Stable`), and suffices in the end for a commit that keeps the
invariant and does no more than the others may rely on (`Protocol.Commits`).

Then the invariant holds in every interleaving (`System.follows_invariant`): locks are held
to the end, so that of two sessions under way none holds a lock of the other.
-/

namespace RatelPlatform

variable {D K E : Type} {α β : Type}

/-- What is true of the committed state, and how it may change while locks are held. -/
structure Protocol (D K : Type) where
  /-- what is always true -/
  inv : D → Prop
  /-- what the others may do while one holds the locks -/
  rely : Set K → D → D → Prop

/-- Two sessions that hold locks hold different ones. -/
def OtherLocks (held others : Set K) : Prop := ∀ l ∈ held, l ∉ others

/-- How far a transaction has got. -/
structure Progress (D K : Type) where
  /-- the locks it holds -/
  held : Set K
  /-- what it has written -/
  patch : D → D
  /-- what it knows of the committed state -/
  know : D → Prop

/-- Nothing has been done yet. -/
def Progress.start : Progress D K := ⟨∅, id, fun _ => True⟩

namespace Protocol

variable (π : Protocol D K)

/-- What is known stays true while the locks are held. -/
def Stable (held : Set K) (know : D → Prop) : Prop :=
  ∀ d d', π.inv d → π.inv d' → π.rely held d d' → know d → know d'

/-- A commit keeps the invariant, and does what the others may rely on. -/
def Commits (s : Progress D K) : Prop :=
  ∀ d, π.inv d → s.know d →
    π.inv (s.patch d) ∧ ∀ others, OtherLocks s.held others → π.rely others d (s.patch d)

theorem stable_true (held : Set K) : π.Stable held fun _ => True := fun _ _ _ _ _ _ => trivial

end Protocol

namespace Tx

variable {π : Protocol D K} {Q Q' : α → Progress D K → Prop} {s : Progress D K}

/-- Whatever the others do, a result is reached with `Q`; each statement may add to what is
known, as long as it stays true. -/
def Follows (π : Protocol D K) (Q : α → Progress D K → Prop) :
    Tx D K E α → Progress D K → Prop
  | ret a, s => Q a s
  | fail _, _ => True
  | read sel k, s => ∀ d, π.inv d → s.know d →
      ∃ know, know d ∧ π.Stable s.held know ∧ (k (sel (s.patch d))).Follows π Q { s with know }
  | write locks f k, s => ∀ d, π.inv d → s.know d → ∀ b q, f (s.patch d) = .ok (b, q) →
      ∃ know, know d ∧ π.Stable (s.held ∪ {l | l ∈ locks (s.patch d)}) know ∧
        (k b).Follows π Q ⟨s.held ∪ {l | l ∈ locks (s.patch d)}, fun d => q (s.patch d), know⟩

/-- **One part after the other**: the second goes on from where the first has got. -/
theorem follows_bind {m : Tx D K E α} {g : α → Tx D K E β} {Q : β → Progress D K → Prop}
    (h : m.Follows π (fun a s => (g a).Follows π Q s) s) : (m >>= g).Follows π Q s := by
  change (m.bind g).Follows π Q s
  induction m generalizing s with
  | ret a => exact h
  | fail e => trivial
  | read sel k ih =>
    intro d hinv hknow
    obtain ⟨know, hd, hstable, hrest⟩ := h d hinv hknow
    exact ⟨know, hd, hstable, ih _ hrest⟩
  | write locks f k ih =>
    intro d hinv hknow b q hf
    obtain ⟨know, hd, hstable, hrest⟩ := h d hinv hknow b q hf
    exact ⟨know, hd, hstable, ih _ hrest⟩

/-- A write that returns nothing. -/
theorem follows_exec {locks : D → List K} {f : D → Except E (D → D)}
    {Q : Unit → Progress D K → Prop}
    (h : ∀ d, π.inv d → s.know d → ∀ q, f (s.patch d) = .ok q →
      ∃ know, know d ∧ π.Stable (s.held ∪ {l | l ∈ locks (s.patch d)}) know ∧
        Q () ⟨s.held ∪ {l | l ∈ locks (s.patch d)}, fun d => q (s.patch d), know⟩) :
    (exec locks f : Tx D K E Unit).Follows π Q s := by
  intro d hinv hknow b q hf
  rcases hd : f (s.patch d) with e | q'
  · simp [hd, Except.map] at hf
  · simp only [hd, Except.map, Except.ok.injEq, Prod.mk.injEq] at hf
    obtain ⟨-, rfl⟩ := hf
    exact h d hinv hknow _ hd

theorem follows_require {c : Prop} [Decidable c] {e : E} {Q : Unit → Progress D K → Prop}
    (h : c → Q () s) : (require c e : Tx D K E Unit).Follows π Q s := by
  simp only [require]
  split_ifs with hc
  · exact h hc
  · trivial

theorem follows_orFail {o : Option α} {e : E} (h : ∀ a, o = some a → Q a s) :
    (orFail o e : Tx D K E α).Follows π Q s := by
  cases o with
  | none => trivial
  | some a => exact h a rfl

theorem follows_discard {m : Tx D K E α} {Q : Unit → Progress D K → Prop}
    (h : m.Follows π (fun _ s => Q () s) s) : m.discard.Follows π Q s :=
  follows_bind h

/-- **Alone**, it keeps the invariant. -/
theorem Follows.solo {m : Tx D K E α} {d d' : D} {a : α}
    (h : m.Follows π (fun _ s => π.Commits s) s) (hinv : π.inv d) (hknow : s.know d)
    (hok : m.solo (s.patch d) = .ok (a, d')) : π.inv d' := by
  induction m generalizing s with
  | ret a' =>
    cases hok
    exact (h d hinv hknow).1
  | fail e => cases hok
  | read sel k ih =>
    obtain ⟨know, hd, -, hrest⟩ := h d hinv hknow
    exact ih _ hrest hd hok
  | write locks f k ih =>
    rw [Tx.solo] at hok
    split at hok
    · cases hok
    · next b q hf =>
      obtain ⟨know, hd, -, hrest⟩ := h d hinv hknow b q hf
      exact ih b hrest hd hok

end Tx

namespace System

variable [DecidableEq K] {π : Protocol D K} {σ σ' : System D K E α} {turn : Turn}

/-- A session that goes on to follow the protocol, under the locks it holds. -/
def Underway (π : Protocol D K) (σ : System D K E α) (i : ℕ) (rest : Tx D K E α)
    (patch : D → D) : Prop :=
  ∃ held know, (∀ l ∈ held, σ.holder l = some i) ∧ know σ.db ∧ π.Stable held know ∧
    rest.Follows π (fun _ s => π.Commits s) ⟨held, patch, know⟩

/-- The invariant holds, and every running session follows the protocol. -/
structure Following (π : Protocol D K) (σ : System D K E α) : Prop where
  inv : π.inv σ.db
  underway : ∀ i rest patch current, σ.sessions i = .running rest patch current →
    Underway π σ i rest patch

omit [DecidableEq K] in
/-- Locks that are kept, and a commit the session may rely on. -/
theorem Underway.of_rely {i : ℕ} {rest : Tx D K E α} {patch : D → D}
    (h : Underway π σ i rest patch) (hinv : π.inv σ.db) (hinv' : π.inv σ'.db)
    (hholder : ∀ l, σ.holder l = some i → σ'.holder l = some i)
    (hrely : ∀ held, (∀ l ∈ held, σ.holder l = some i) → σ'.db = σ.db ∨
      π.rely held σ.db σ'.db) : Underway π σ' i rest patch := by
  obtain ⟨held, know, hheld, hknow, hstable, hrest⟩ := h
  refine ⟨held, know, fun l hl => hholder l (hheld l hl), ?_, hstable, hrest⟩
  rcases hrely held hheld with hdb | hrely
  · rw [hdb]
    exact hknow
  · exact hstable _ _ hinv hinv' hrely hknow

omit [DecidableEq K] in
theorem Following.init {programs : ℕ → Tx D K E α} {d₀ : D} (h₀ : π.inv d₀)
    (hprograms : ∀ i, (programs i).Follows π (fun _ s => π.Commits s) .start) :
    Following π (init d₀ programs) := by
  refine ⟨h₀, fun i rest patch current hi => ?_⟩
  cases hi
  exact ⟨∅, fun _ => True, fun l hl => hl.elim, trivial, π.stable_true ∅, hprograms i⟩

omit [DecidableEq K] in
/-- A session that ends without a commit. -/
theorem Following.finish (h : Following π σ) (i : ℕ) {outcome : Session D K E α}
    (hended : ∀ rest patch current, outcome ≠ .running rest patch current) :
    Following π (σ.finish i outcome) := by
  refine ⟨h.inv, fun j rest patch current hj => ?_⟩
  obtain ⟨-, hrunning⟩ | ⟨hne, hj⟩ := running_update hj
  · exact absurd hrunning (hended _ _ _)
  · exact (h.underway j _ _ _ hj).of_rely h.inv h.inv (fun l hl => finish_holder outcome hl hne)
      fun _ _ => .inl rfl

omit [DecidableEq K] in
/-- **A commit**: the others hold other locks, so they may rely on what it does. -/
theorem Following.commit (h : Following π σ) {i : ℕ} {a : α} {patch : D → D}
    {current : D → Prop} (hi : σ.sessions i = .running (.ret a) patch current) (log : List ℕ) :
    Following π { σ.finish i (.committed a) with db := patch σ.db, log := log } := by
  obtain ⟨held, know, hheld, hknow, -, hcommits⟩ := h.underway i _ _ _ hi
  obtain ⟨hinv, hrely⟩ := hcommits σ.db h.inv hknow
  refine ⟨hinv, fun j rest patch₁ current₁ hj => ?_⟩
  obtain ⟨-, hrunning⟩ | ⟨hne, hj⟩ := running_update hj
  · cases hrunning
  · refine (h.underway j _ _ _ hj).of_rely h.inv hinv
      (fun l hl => finish_holder (.committed a) hl hne) fun held' hheld' => .inr ?_
    refine hrely held' fun l hl hl' => hne ?_
    exact Option.some.inj ((hheld' l hl').symm.trans (hheld l hl))

omit [DecidableEq K] in
/-- A session that goes on, with at least the locks it has. -/
theorem Following.update (h : Following π σ) {i : ℕ} {rest : Tx D K E α} {patch : D → D}
    {current : D → Prop} (hdb : σ'.db = σ.db)
    (hsessions : σ'.sessions = Function.update σ.sessions i (.running rest patch current))
    (hholder : ∀ j l, j ≠ i → σ.holder l = some j → σ'.holder l = some j)
    (hi : Underway π σ' i rest patch) : Following π σ' := by
  refine ⟨hdb ▸ h.inv, fun j rest₁ patch₁ current₁ hj => ?_⟩
  rw [hsessions] at hj
  obtain ⟨rfl, hrunning⟩ | ⟨hne, hj⟩ := running_update hj
  · cases hrunning
    exact hi
  · exact (h.underway j _ _ _ hj).of_rely h.inv (hdb ▸ h.inv) (fun l hl => hholder j l hne hl)
      fun _ _ => .inl hdb

/-- **One turn** keeps the invariant, and every session following. -/
theorem Following.next (h : Following π σ) (hn : σ.next turn = some σ') : Following π σ' := by
  cases took_of_next hn with
  | killed _ => exact h.finish _ (by simp)
  | failed _ => exact h.finish _ (by simp)
  | violated _ _ _ => exact h.finish _ (by simp)
  | committed hi => exact h.commit hi _
  | @read i β sel k patch current hi =>
    obtain ⟨held, know, hheld, hknow, -, hrest⟩ := h.underway i _ _ _ hi
    obtain ⟨know', hknow', hstable', hrest'⟩ := hrest σ.db h.inv hknow
    exact h.update rfl rfl (fun _ _ _ hl => hl) ⟨held, know', hheld, hknow', hstable', hrest'⟩
  | @wrote i β locks f k patch q current b hi hfree hf =>
    obtain ⟨held, know, hheld, hknow, -, hrest⟩ := h.underway i _ _ _ hi
    obtain ⟨know', hknow', hstable', hrest'⟩ := hrest σ.db h.inv hknow b q hf
    refine h.update rfl rfl (fun j l hne hl => hfree.holder hne hl)
      ⟨_, know', ?_, hknow', hstable', hrest'⟩
    rintro l (hl | hl)
    · simp only [hheld l hl]
      split_ifs <;> rfl
    · exact if_pos hl

/-- **The invariant rule**: from a state of the protocol, what is always true of it is true
of what is committed, in every interleaving of transactions that follow it. -/
theorem follows_invariant {programs : ℕ → Tx D K E α} {d₀ : D}
    {ok : System D K E α → Turn → Prop} {turns : List Turn} (h₀ : π.inv d₀)
    (hprograms : ∀ i, (programs i).Follows π (fun _ s => π.Commits s) .start)
    (hr : Reaches System.next ok (System.init d₀ programs) turns σ) : π.inv σ.db :=
  (hr.invariant (Following.init h₀ hprograms) fun _ _ _ h _ hn => h.next hn).inv

end System

end RatelPlatform
