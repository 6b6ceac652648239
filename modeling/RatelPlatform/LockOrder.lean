import RatelPlatform.CriticalSection
import Mathlib.Data.Set.Finite.Basic

/-!
# Transactions that take their locks in order

Sessions that wait for each other's row locks in a circle wait for ever. A lock order
keeps them from it: each lock has a rank, and a transaction asks for locks of higher
and higher rank (`Tx.Climbs`). Two kinds of locks are outside the order, as nobody else
can hold them when they are asked for:

* a lock with a *guard*, which a transaction takes only while it holds the guard;
* a lock of a transaction's *own*: of a row that it is about to create. Another
  transaction asks for it only once the row is *issued*, that is committed.

Then a session under way can always be brought to its end by statements alone, without
killing anybody (`System.no_deadlock`).
-/

namespace RatelPlatform

variable {D K E : Type} {α β : Type}

/-- Ranks, guards, and the locks of rows that a committed state knows of. -/
structure LockOrder (D K : Type) where
  /-- how far up a lock is -/
  rank : K → ℕ
  /-- no lock is further up -/
  height : ℕ
  rank_le : ∀ l, rank l ≤ height
  /-- the lock under which alone a lock is asked for, if there is one -/
  guard : K → Option K
  /-- the state knows of the row of the lock -/
  issued : D → K → Prop

/-- How far up a transaction has got. -/
structure Stage (D K : Type) where
  /-- the locks it holds -/
  held : Set K
  /-- what it has written -/
  patch : D → D
  /-- what was committed at its last statement -/
  since : D
  /-- the rank from which on it may ask for locks -/
  level : ℕ

/-- Nothing has been done yet. -/
def Stage.start (d : D) : Stage D K := ⟨∅, id, d, 0⟩

namespace LockOrder

variable (o : LockOrder D K) (own : Set K)

/-- What is issued stays issued. -/
def Grows (d d' : D) : Prop := ∀ l, o.issued d l → o.issued d' l

theorem Grows.refl (d : D) : o.Grows d d := fun _ h => h

variable {o} in
theorem Grows.trans {d d' d'' : D} (h : o.Grows d d') (h' : o.Grows d' d'') : o.Grows d d'' :=
  fun l hl => h' l (h l hl)

/-- The transaction may ask for the lock. -/
def Admits (s : Stage D K) (d : D) (l : K) : Prop :=
  l ∈ own ∨ o.issued d l ∧ (∀ g, o.guard l = some g → g ∈ s.held) ∧
    (o.guard l = none → s.level ≤ o.rank l)

/-- The lock is out of the way of a transaction at this level. -/
def Passed (level : ℕ) (l : K) : Prop :=
  l ∈ own ∨ o.guard l ≠ none ∨ o.rank l < level

/-- A commit issues own locks only, and takes none back. -/
def Publishes (s : Stage D K) : Prop :=
  ∀ d, o.Grows s.since d → o.Grows d (s.patch d) ∧
    ∀ l, o.issued (s.patch d) l → o.issued d l ∨ l ∈ own

end LockOrder

namespace Tx

/-- Whatever is committed meanwhile, the transaction asks for locks in order, and a result
is reached with `Q`. -/
def Climbs (o : LockOrder D K) (own : Set K) (Q : α → Stage D K → Prop) :
    Tx D K E α → Stage D K → Prop
  | ret a, s => Q a s
  | fail _, _ => True
  | read sel k, s => ∀ d, o.Grows s.since d →
      (k (sel (s.patch d))).Climbs o own Q { s with since := d }
  | write locks f k, s => ∀ d, o.Grows s.since d →
      (∀ l ∈ locks (s.patch d), o.Admits own s d l) ∧
      ∀ b q, f (s.patch d) = .ok (b, q) → ∃ level, s.level ≤ level ∧
        (∀ l ∈ locks (s.patch d), o.Passed own level l) ∧
        (k b).Climbs o own Q
          ⟨s.held ∪ {l | l ∈ locks (s.patch d)}, fun d => q (s.patch d), d, level⟩

variable {o : LockOrder D K} {own : Set K} {Q : α → Stage D K → Prop} {s : Stage D K}

@[simp] theorem climbs_ret {a : α} : (ret a : Tx D K E α).Climbs o own Q s ↔ Q a s := Iff.rfl

@[simp] theorem climbs_fail {e : E} : (fail e : Tx D K E α).Climbs o own Q s := trivial

/-- **One part after the other**: the second goes on from the level the first has reached. -/
theorem climbs_bind {m : Tx D K E α} {g : α → Tx D K E β} {Q : β → Stage D K → Prop}
    (h : m.Climbs o own (fun a s => (g a).Climbs o own Q s) s) : (m >>= g).Climbs o own Q s := by
  change (m.bind g).Climbs o own Q s
  induction m generalizing s with
  | ret a => exact h
  | fail e => trivial
  | read sel k ih => exact fun d hd => ih _ (h d hd)
  | write locks f k ih =>
    intro d hd
    obtain ⟨hadmits, hrest⟩ := h d hd
    refine ⟨hadmits, fun b q hf => ?_⟩
    obtain ⟨level, hle, hpassed, hrest⟩ := hrest b q hf
    exact ⟨level, hle, hpassed, ih _ hrest⟩

/-- Looking asks for nothing. -/
theorem Looks.climbs {m : Tx D K E α} {R : α → Prop} (h : m.Looks R)
    (hQ : ∀ a d, R a → o.Grows s.since d → Q a { s with since := d }) : m.Climbs o own Q s := by
  suffices hgoes : ∀ d, o.Grows s.since d → m.Climbs o own Q { s with since := d } from
    hgoes s.since (.refl o _)
  induction m with
  | ret a => exact fun d hd => hQ a d h hd
  | fail e => exact fun _ _ => trivial
  | read sel k ih =>
    intro d hd d' hd'
    exact ih _ (h _) d' (hd.trans hd')
  | write locks f k ih => exact h.elim

/-- A write that returns nothing. -/
theorem climbs_exec {locks : D → List K} {f : D → Except E (D → D)} {Q : Unit → Stage D K → Prop}
    (level : ℕ) (hlevel : s.level ≤ level)
    (h : ∀ d, o.Grows s.since d → (∀ l ∈ locks (s.patch d),
        o.Admits own s d l ∧ o.Passed own level l) ∧
      ∀ q, f (s.patch d) = .ok q →
        Q () ⟨s.held ∪ {l | l ∈ locks (s.patch d)}, fun d => q (s.patch d), d, level⟩) :
    (exec locks f : Tx D K E Unit).Climbs o own Q s := by
  intro d hd
  obtain ⟨hlocks, hrest⟩ := h d hd
  refine ⟨fun l hl => (hlocks l hl).1, fun b q hf => ⟨level, hlevel, fun l hl => (hlocks l hl).2, ?_⟩⟩
  rcases hq : f (s.patch d) with e | q'
  · simp [hq, Except.map] at hf
  · simp only [hq, Except.map, Except.ok.injEq, Prod.mk.injEq] at hf
    obtain ⟨-, rfl⟩ := hf
    exact hrest _ hq

theorem climbs_orFail {a : Option α} {e : E} (h : ∀ b, a = some b → Q b s) :
    (orFail a e : Tx D K E α).Climbs o own Q s := by
  rcases a with _ | b
  · trivial
  · exact h b rfl

theorem climbs_require {c : Prop} [Decidable c] {e : E} {Q : Unit → Stage D K → Prop}
    (h : c → Q () s) : (require c e : Tx D K E Unit).Climbs o own Q s := by
  simp only [require]
  split_ifs with hc
  · exact h hc
  · trivial

theorem climbs_ofExcept {x : Except E α} (h : ∀ a, x = .ok a → Q a s) :
    (ofExcept x : Tx D K E α).Climbs o own Q s := by
  rcases x with e | a
  · trivial
  · exact h a rfl

end Tx

namespace System

variable {o : LockOrder D K} {own : ℕ → Set K} {level : ℕ → ℕ} {σ σ' : System D K E α}

/-- The session has come to its end, by a commit or not. -/
def Ended (σ : System D K E α) (i : ℕ) : Prop :=
  ∀ rest patch current, σ.sessions i ≠ .running rest patch current

/-- A session that goes on in order from its level, and has passed the locks it holds. -/
def Ascending (o : LockOrder D K) (own : Set K) (level : ℕ) (σ : System D K E α) (i : ℕ)
    (rest : Tx D K E α) (patch : D → D) : Prop :=
  (∀ l, σ.holder l = some i → o.Passed own level l) ∧
    ∃ held since, (∀ l ∈ held, σ.holder l = some i) ∧ o.Grows since σ.db ∧
      rest.Climbs o own (fun _ s => o.Publishes own s) ⟨held, patch, since, level⟩

/-- Every running session takes its locks in order, and nobody is at its own locks. -/
structure Ordered (o : LockOrder D K) (own : ℕ → Set K) (level : ℕ → ℕ) (σ : System D K E α) :
    Prop where
  running : ∀ l i, σ.holder l = some i → ¬ σ.Ended i
  holds : ∀ l i, σ.holder l = some i → l ∈ own i ∨
    o.issued σ.db l ∧ ∀ g, o.guard l = some g → σ.holder g = some i
  fresh : ∀ i, ¬ σ.Ended i → ∀ l ∈ own i, ¬ o.issued σ.db l
  finite : {i | ∃ l, σ.holder l = some i}.Finite
  ascending : ∀ i rest patch current, σ.sessions i = .running rest patch current →
    Ascending o (own i) (level i) σ i rest patch

theorem not_ended {i : ℕ} {rest : Tx D K E α} {patch : D → D} {current : D → Prop}
    (hi : σ.sessions i = .running rest patch current) : ¬ σ.Ended i :=
  fun h => h _ _ _ hi

theorem exists_running {i : ℕ} (h : ¬ σ.Ended i) :
    ∃ rest patch current, σ.sessions i = .running rest patch current := by
  simpa [Ended] using h

/-- After a turn of `i`, another session is where it was. -/
theorem ended_update {i j : ℕ} {outcome : Session D K E α}
    (hsessions : σ'.sessions = Function.update σ.sessions i outcome) (hne : j ≠ i) :
    σ'.Ended j ↔ σ.Ended j := by
  simp only [Ended, hsessions, Function.update_of_ne hne]

theorem ended_of_update {i : ℕ} {outcome : Session D K E α}
    (hsessions : σ'.sessions = Function.update σ.sessions i outcome)
    (hended : ∀ rest patch current, outcome ≠ .running rest patch current) : σ'.Ended i := by
  simp only [Ended, hsessions, Function.update_self]
  exact hended

/-- Locks that are kept, and a state that has grown. -/
theorem Ascending.of_grows {i n : ℕ} {own : Set K} {rest : Tx D K E α} {patch : D → D}
    (h : Ascending o own n σ i rest patch) (hdb : o.Grows σ.db σ'.db)
    (hholder : ∀ l, σ'.holder l = some i ↔ σ.holder l = some i) :
    Ascending o own n σ' i rest patch := by
  obtain ⟨hpassed, held, since, hheld, hsince, hrest⟩ := h
  exact ⟨fun l hl => hpassed l ((hholder l).mp hl), held, since,
    fun l hl => (hholder l).mpr (hheld l hl), hsince.trans hdb, hrest⟩

theorem finish_holder_iff {i j : ℕ} {outcome : Session D K E α} {l : K} :
    (σ.finish i outcome).holder l = some j ↔ σ.holder l = some j ∧ j ≠ i := by
  simp only [finish]
  split_ifs with hl
  · simp only [hl, Option.some.injEq, false_iff, not_and, not_not]
    exact Eq.symm
  · refine ⟨fun h => ⟨h, ?_⟩, fun h => h.1⟩
    rintro rfl
    exact hl h

/-- **The end of a session**: its locks are free, and what it has published is its own. -/
theorem Ordered.finish (hown : ∀ i j l, l ∈ own i → l ∈ own j → i = j)
    (h : Ordered o own level σ) {i : ℕ} (outcome : Session D K E α)
    (hended : ∀ rest patch current, outcome ≠ .running rest patch current)
    (hdb : o.Grows σ.db σ'.db ∧ ∀ l, o.issued σ'.db l → o.issued σ.db l ∨ l ∈ own i)
    (hholder : σ'.holder = (σ.finish i outcome).holder)
    (hsessions : σ'.sessions = Function.update σ.sessions i outcome) :
    Ordered o own level σ' := by
  have hself := ended_of_update hsessions hended
  have hholder : ∀ {l j}, σ'.holder l = some j ↔ σ.holder l = some j ∧ j ≠ i := by
    intro l j
    rw [hholder, finish_holder_iff]
  refine ⟨?_, ?_, ?_, ?_, ?_⟩
  · intro l j hl
    obtain ⟨hl, hne⟩ := hholder.mp hl
    rw [ended_update hsessions hne]
    exact h.running l j hl
  · intro l j hl
    obtain ⟨hl, hne⟩ := hholder.mp hl
    refine (h.holds l j hl).imp_right ?_
    rintro ⟨hissued, hguard⟩
    exact ⟨hdb.1 l hissued, fun g hg => hholder.mpr ⟨hguard g hg, hne⟩⟩
  · intro j hj l hl hissued
    have hne : j ≠ i := by
      rintro rfl
      exact hj hself
    rw [ended_update hsessions hne] at hj
    rcases hdb.2 l hissued with hbefore | hmine
    · exact h.fresh j hj l hl hbefore
    · exact hne (hown j i l hl hmine)
  · refine h.finite.subset ?_
    rintro j ⟨l, hl⟩
    exact ⟨l, (hholder.mp hl).1⟩
  · intro j rest patch current hj
    rw [hsessions] at hj
    obtain ⟨-, hrunning⟩ | ⟨hne, hj⟩ := running_update hj
    · exact absurd hrunning (hended _ _ _)
    · refine (h.ascending j _ _ _ hj).of_grows hdb.1 fun l => ?_
      rw [hholder]
      exact and_iff_left hne

variable [DecidableEq K]

/-- A statement: the session goes on, with at least the locks it has. -/
theorem Ordered.update (h : Ordered o own level σ) {i n : ℕ} {rest rest' : Tx D K E α}
    {patch patch' : D → D} {current current' : D → Prop} (locks : List K)
    (hi : σ.sessions i = .running rest patch current) (hdb : σ'.db = σ.db)
    (hsessions : σ'.sessions = Function.update σ.sessions i (.running rest' patch' current'))
    (hfree : σ.Free i locks)
    (hholder : σ'.holder = fun l => if l ∈ locks then some i else σ.holder l)
    (hadmits : ∀ l ∈ locks, l ∈ own i ∨
      o.issued σ.db l ∧ ∀ g, o.guard l = some g → σ.holder g = some i)
    (hrest : Ascending o (own i) n σ' i rest' patch') :
    Ordered o own (Function.update level i n) σ' := by
  have hother : ∀ {l j}, j ≠ i → (σ'.holder l = some j ↔ σ.holder l = some j) := by
    intro l j hne
    rw [hholder]
    refine ⟨fun hl => ?_, fun hl => hfree.holder hne hl⟩
    change (if l ∈ locks then some i else σ.holder l) = some j at hl
    split_ifs at hl
    · exact absurd (Option.some.inj hl).symm hne
    · exact hl
  have hkeeps : ∀ {l}, σ.holder l = some i → σ'.holder l = some i := by
    intro l hl
    rw [hholder]
    simp only [hl, ite_self]
  have hrunning : ∀ {j}, σ'.Ended j ↔ σ.Ended j := by
    intro j
    by_cases hne : j = i
    · subst hne
      refine iff_of_false (fun h' => ?_) (not_ended hi)
      exact h' rest' patch' current' (by rw [hsessions, Function.update_self])
    · exact ended_update hsessions hne
  refine ⟨?_, ?_, ?_, ?_, ?_⟩
  · intro l j hl
    rw [hrunning]
    by_cases hne : j = i
    · subst hne
      exact not_ended hi
    · exact h.running l j ((hother hne).mp hl)
  · intro l j hl
    rw [hdb]
    by_cases hne : j = i
    · subst hne
      rw [hholder] at hl
      change (if l ∈ locks then some j else σ.holder l) = some j at hl
      split_ifs at hl with hmem
      · exact (hadmits l hmem).imp_right fun hl => ⟨hl.1, fun g hg => hkeeps (hl.2 g hg)⟩
      · exact (h.holds l j hl).imp_right fun hl => ⟨hl.1, fun g hg => hkeeps (hl.2 g hg)⟩
    · refine (h.holds l j ((hother hne).mp hl)).imp_right ?_
      rintro ⟨hissued, hguard⟩
      exact ⟨hissued, fun g hg => (hother hne).mpr (hguard g hg)⟩
  · intro j hj
    rw [hrunning] at hj
    rw [hdb]
    exact h.fresh j hj
  · refine (h.finite.insert i).subset ?_
    rintro j ⟨l, hl⟩
    by_cases hne : j = i
    · exact .inl hne
    · exact .inr ⟨l, (hother hne).mp hl⟩
  · intro j rest₁ patch₁ current₁ hj
    rw [hsessions] at hj
    obtain ⟨rfl, hrunning⟩ | ⟨hne, hj⟩ := running_update hj
    · cases hrunning
      rw [Function.update_self]
      exact hrest
    · rw [Function.update_of_ne hne]
      refine (h.ascending j _ _ _ hj).of_grows ?_ fun l => hother hne
      rw [hdb]
      exact .refl o _

/-- **One turn** keeps the order; nobody gets to a lower level. -/
theorem Ordered.next (hown : ∀ i j l, l ∈ own i → l ∈ own j → i = j)
    (h : Ordered o own level σ) {turn : Turn} (hn : σ.next turn = some σ') :
    ∃ level', (∀ i, level i ≤ level' i) ∧ Ordered o own level' σ' := by
  have hends : ∀ i outcome, (∀ rest patch current, outcome ≠ .running rest patch current) →
      ∃ level', (∀ i, level i ≤ level' i) ∧ Ordered o own level' (σ.finish i outcome) := by
    intro i outcome hended
    exact ⟨level, fun _ => le_rfl,
      h.finish hown _ hended ⟨.refl o _, fun _ => .inl⟩ rfl rfl⟩
  have hraise : ∀ i n, level i ≤ n → ∀ j, level j ≤ Function.update level i n j := by
    intro i n hle j
    rw [Function.update_apply]
    split_ifs with hj
    · rwa [hj]
    · exact le_rfl
  cases took_of_next hn with
  | killed _ => exact hends _ _ (by simp)
  | failed _ => exact hends _ _ (by simp)
  | violated _ _ _ => exact hends _ _ (by simp)
  | @committed i a patch current hi =>
    obtain ⟨-, held, since, -, hsince, hpublishes⟩ := h.ascending i _ _ _ hi
    exact ⟨level, fun _ => le_rfl,
      h.finish hown (.committed a) (by simp) (hpublishes σ.db hsince) rfl rfl⟩
  | @read i β sel k patch current hi =>
    obtain ⟨hpassed, held, since, hheld, hsince, hrest⟩ := h.ascending i _ _ _ hi
    refine ⟨_, hraise i (level i) le_rfl, h.update [] hi rfl rfl ?_ ?_ ?_ ?_⟩
    · exact fun l hl => absurd hl List.not_mem_nil
    · simp
    · exact fun l hl => absurd hl List.not_mem_nil
    · exact ⟨hpassed, held, σ.db, hheld, .refl o _, hrest σ.db hsince⟩
  | @wrote i β locks f k patch q current b hi hfree hf =>
    obtain ⟨hpassed, held, since, hheld, hsince, hrest⟩ := h.ascending i _ _ _ hi
    obtain ⟨hadmits, hrest⟩ := hrest σ.db hsince
    obtain ⟨n, hle, hbelow, hrest⟩ := hrest b q hf
    refine ⟨_, hraise i n hle, h.update _ hi rfl rfl hfree rfl ?_ ?_⟩
    · intro l hl
      refine (hadmits l hl).imp_right ?_
      rintro ⟨hissued, hguard, -⟩
      exact ⟨hissued, fun g hg => hheld g (hguard g hg)⟩
    · refine ⟨fun l hl => ?_, held ∪ {l | l ∈ locks (patch σ.db)}, σ.db, ?_, .refl o _, hrest⟩
      · simp only at hl
        split_ifs at hl with hmem
        · exact hbelow l hmem
        · exact (hpassed l hl).imp_right fun hl => hl.imp_right fun hl => hl.trans_le hle
      · rintro l (hl | hl)
        · simp only [hheld l hl, ite_self]
        · exact if_pos hl

/-! ## Bringing a session to its end -/

/-- Statements only: nobody is killed. -/
def IsStep (_ : System D K E α) (turn : Turn) : Prop := ∃ i, turn = .step i

/-- Only the sessions of `S` hold locks. -/
def HeldBy (σ : System D K E α) (S : Finset ℕ) : Prop := ∀ l i, σ.holder l = some i → i ∈ S

omit [DecidableEq K] in
/-- **One of the two at a lock is further up**: the one that holds it. -/
theorem Ordered.lt_level (hown : ∀ i j l, l ∈ own i → l ∈ own j → i = j)
    (h : Ordered o own level σ) {i j : ℕ} {s : Stage D K} {l : K} (hi : ¬ σ.Ended i)
    (hheld : ∀ l ∈ s.held, σ.holder l = some i) (hl : σ.holder l = some j) (hne : j ≠ i)
    (hadmits : o.Admits (own i) s σ.db l) : s.level ≤ o.rank l ∧ o.rank l < level j := by
  obtain ⟨rest, patch, current, hj⟩ := exists_running (h.running l j hl)
  have hfreshi : l ∉ own i := by
    intro hmine
    rcases h.holds l j hl with hother | ⟨hissued, -⟩
    · exact hne (hown j i l hother hmine)
    · exact h.fresh i hi l hmine hissued
  obtain ⟨hissued, hguard, hrank⟩ := hadmits.resolve_left hfreshi
  have hfreshj : l ∉ own j := fun hother => h.fresh j (not_ended hj) l hother hissued
  -- with a guard it would be the guard that the two hold
  have hnone : o.guard l = none := by
    rcases hg : o.guard l with _ | g
    · rfl
    · have hgi := hheld g (hguard g hg)
      have hgj := ((h.holds l j hl).resolve_left hfreshj).2 g hg
      exact absurd (Option.some.inj (hgj.symm.trans hgi)) hne
  refine ⟨hrank hnone, ?_⟩
  rcases (h.ascending j _ _ _ hj).1 l hl with hother | hguarded | hlt
  · exact absurd hother hfreshj
  · exact absurd hnone hguarded
  · exact hlt

/-- A statement of a session of `S`. -/
theorem HeldBy.next {S : Finset ℕ} {i : ℕ} (h : σ.HeldBy S) (hi : i ∈ S)
    (hn : σ.next (.step i) = some σ') : σ'.HeldBy S := by
  have hfinish : ∀ outcome, (σ.finish i outcome).HeldBy S :=
    fun _ l j hl => h l j (finish_holder_iff.mp hl).1
  cases took_of_next hn with
  | @committed _ a _ _ _ => exact hfinish (.committed a)
  | failed _ => exact hfinish _
  | violated _ _ _ => exact hfinish _
  | read _ => exact h
  | wrote _ _ _ =>
    intro l j hl
    simp only at hl
    split_ifs at hl
    · exact Option.some.inj hl ▸ hi
    · exact h l j hl

/-- A session that is at its end, or has to wait: at a lock from rank `n` on, for one that
is further up. -/
def Stands (o : LockOrder D K) (level : ℕ → ℕ) (σ : System D K E α) (n i : ℕ) : Prop :=
  σ.Ended i ∨ ∃ l j, j ≠ i ∧ σ.holder l = some j ∧ n ≤ o.rank l ∧ o.rank l < level j

omit [DecidableEq K] in
theorem Stands.of_le {n n' i : ℕ} (h : Stands o level σ n i) (hle : n' ≤ n) :
    Stands o level σ n' i := by
  refine h.imp_right ?_
  rintro ⟨l, j, hne, hl, hrank, hlt⟩
  exact ⟨l, j, hne, hl, hle.trans hrank, hlt⟩

/-- The sessions of `S` can go on by themselves to where `P` holds. -/
def CanReach (o : LockOrder D K) (own : ℕ → Set K) (S : Finset ℕ) (σ : System D K E α)
    (P : (ℕ → ℕ) → System D K E α → Prop) : Prop :=
  ∃ turns σ' level, Reaches System.next IsStep σ turns σ' ∧ Ordered o own level σ' ∧
    σ'.HeldBy S ∧ P level σ'

omit [DecidableEq K] in
theorem HeldBy.mono {S T : Finset ℕ} (h : σ.HeldBy S) (hsub : S ⊆ T) : σ.HeldBy T :=
  fun l i hl => hsub (h l i hl)

/-- Where it holds already. -/
theorem Ordered.canReach_self {S : Finset ℕ} {P : (ℕ → ℕ) → System D K E α → Prop}
    (h : Ordered o own level σ) (hheld : σ.HeldBy S) (hP : P level σ) : CanReach o own S σ P :=
  ⟨[], σ, level, .nil, h, hheld, hP⟩

/-- By a statement, and on from there. -/
theorem Ordered.canReach (hown : ∀ i j l, l ∈ own i → l ∈ own j → i = j) {i : ℕ} {S : Finset ℕ}
    (hS : i ∈ S) (h : Ordered o own level σ) (hheld : σ.HeldBy S)
    {P : (ℕ → ℕ) → System D K E α → Prop} (hn : σ.next (.step i) = some σ')
    (hthen : ∀ level', Ordered o own level' σ' → σ'.HeldBy S → level i ≤ level' i →
      CanReach o own S σ' P) : CanReach o own S σ P := by
  obtain ⟨level', hle, h'⟩ := h.next hown hn
  obtain ⟨turns, σ'', level'', hr, hrest⟩ := hthen level' h' (hheld.next hS hn) (hle i)
  exact ⟨_, σ'', level'', (Reaches.nil.snoc ⟨i, rfl⟩ hn).append hr, hrest⟩

/-- **Alone**: a session goes on until it stands. -/
theorem Ordered.goes_on (hown : ∀ i j l, l ∈ own i → l ∈ own j → i = j) {i : ℕ} {S : Finset ℕ}
    (hS : i ∈ S) (rest : Tx D K E α) (h : Ordered o own level σ) (hheld : σ.HeldBy S)
    {patch : D → D} {current : D → Prop} (hi : σ.sessions i = .running rest patch current) :
    CanReach o own S σ fun level' σ' => Stands o level' σ' (level i) i := by
  induction rest generalizing σ level patch current with
  | ret a =>
    refine h.canReach hown hS hheld (by simp only [System.next, hi]; rfl) fun _ h₁ hheld₁ _ => ?_
    exact h₁.canReach_self hheld₁ (.inl (ended_of_update rfl (by simp)))
  | fail e =>
    refine h.canReach hown hS hheld (by simp only [System.next, hi]; rfl) fun _ h₁ hheld₁ _ => ?_
    exact h₁.canReach_self hheld₁ (.inl (ended_of_update rfl (by simp)))
  | read sel k ih =>
    refine h.canReach hown hS hheld (by simp only [System.next, hi]; rfl) fun _ h₁ hheld₁ hle => ?_
    obtain ⟨turns, σ', level', hr, h', hheld', hstands⟩ :=
      ih _ h₁ hheld₁ (Function.update_self _ _ _)
    exact ⟨turns, σ', level', hr, h', hheld', hstands.of_le hle⟩
  | write locks f k ih =>
    by_cases hfree : σ.Free i (locks (patch σ.db))
    · rcases hf : f (patch σ.db) with e | ⟨b, q⟩
      · refine h.canReach hown hS hheld (by simp only [System.next, hi, if_pos hfree, hf]; rfl)
          fun _ h₁ hheld₁ _ => ?_
        exact h₁.canReach_self hheld₁ (.inl (ended_of_update rfl (by simp)))
      · refine h.canReach hown hS hheld (by simp only [System.next, hi, if_pos hfree, hf]; rfl)
          fun _ h₁ hheld₁ hle => ?_
        obtain ⟨turns, σ', level', hr, h', hheld', hstands⟩ :=
          ih b h₁ hheld₁ (Function.update_self _ _ _)
        exact ⟨turns, σ', level', hr, h', hheld', hstands.of_le hle⟩
    · -- it has to wait for the one that holds a lock it asks for
      simp only [Free, not_forall, not_or] at hfree
      obtain ⟨l, hl, hnone, hnotmine⟩ := hfree
      obtain ⟨j, hj⟩ := Option.ne_none_iff_exists'.mp hnone
      have hne : j ≠ i := by
        rintro rfl
        exact hnotmine hj
      obtain ⟨-, held, since, hheldi, hsince, hrest⟩ := h.ascending i _ _ _ hi
      obtain ⟨hrank, hlt⟩ := h.lt_level hown (s := ⟨held, patch, since, level i⟩) (not_ended hi)
        hheldi hj hne ((hrest σ.db hsince).1 l hl)
      exact h.canReach_self hheld (.inr ⟨l, j, hne, hj, hrank, hlt⟩)

/-- **To the end**: first the one it has to wait for, which is further up, is brought to its
end; then fewer sessions hold locks. -/
theorem Ordered.finishes (hown : ∀ i j l, l ∈ own i → l ∈ own j → i = j) (S : Finset ℕ) :
    ∀ (n i : ℕ) (level : ℕ → ℕ) (σ : System D K E α), i ∈ S → Ordered o own level σ → σ.HeldBy S →
      o.height < level i + n → CanReach o own S σ fun _ σ' => σ'.Ended i := by
  induction S using Finset.strongInduction with
  | H S ihS =>
    intro n
    induction n using Nat.strong_induction_on with
    | h n ihn =>
      intro i level σ hS h hheld hn
      by_cases hend : σ.Ended i
      · exact h.canReach_self hheld hend
      obtain ⟨rest, patch, current, hi⟩ := exists_running hend
      obtain ⟨turns₁, σ₁, level₁, hr₁, h₁, hheld₁, hstands⟩ := h.goes_on hown hS rest hheld hi
      rcases hstands with hend₁ | ⟨l, j, hne, hl, hrank, hlt⟩
      · exact ⟨turns₁, σ₁, level₁, hr₁, h₁, hheld₁, hend₁⟩
      · have hheight := o.rank_le l
        obtain ⟨turns₂, σ₂, level₂, hr₂, h₂, hheld₂, hend₂⟩ :=
          ihn (n - 1) (by omega) j level₁ σ₁ (hheld₁ l j hl) h₁ hheld₁ (by omega)
        -- the one it had to wait for holds no lock any more
        have hfewer : σ₂.HeldBy (S.erase j) := by
          refine fun l' j' hl' => Finset.mem_erase.mpr ⟨?_, hheld₂ l' j' hl'⟩
          rintro rfl
          exact h₂.running l' j' hl' hend₂
        obtain ⟨turns₃, σ₃, level₃, hr₃, h₃, hheld₃, hend₃⟩ :=
          ihS (S.erase j) (Finset.erase_ssubset (hheld₁ l j hl)) (o.height + 1) i level₂ σ₂
            (Finset.mem_erase.mpr ⟨hne.symm, hS⟩) h₂ hfewer (by omega)
        exact ⟨_, σ₃, level₃, hr₁.append (hr₂.append hr₃), h₃,
          hheld₃.mono (Finset.erase_subset j S), hend₃⟩

/-- **No deadlock**: when each transaction takes its locks in order, each of any number of
sessions can be brought to its end from wherever they have got to, by statements alone. -/
theorem no_deadlock {programs : ℕ → Tx D K E α} {d₀ : D} {ok : System D K E α → Turn → Prop}
    {turns : List Turn} (hown : ∀ i j l, l ∈ own i → l ∈ own j → i = j)
    (hfresh : ∀ i, ∀ l ∈ own i, ¬ o.issued d₀ l)
    (hprograms : ∀ i, (programs i).Climbs o (own i) (fun _ s => o.Publishes (own i) s) (.start d₀))
    (hr : Reaches System.next ok (init d₀ programs) turns σ) (i : ℕ) :
    ∃ turns' σ', Reaches System.next IsStep σ turns' σ' ∧ σ'.Ended i := by
  have h₀ : Ordered o own (fun _ => 0) (init d₀ programs) := by
    refine ⟨nofun, nofun, fun i _ => hfresh i, ?_, ?_⟩
    · simp [init]
    · intro j rest patch current hj
      cases hj
      exact ⟨nofun, ∅, d₀, fun l hl => hl.elim, .refl o d₀, hprograms j⟩
  obtain ⟨level, h⟩ := hr.invariant (P := fun σ => ∃ level, Ordered o own level σ) ⟨_, h₀⟩ (by
    rintro σ turn σ' ⟨level, h⟩ - hn
    obtain ⟨level', -, h'⟩ := h.next hown hn
    exact ⟨level', h'⟩)
  have hheld : σ.HeldBy (insert i h.finite.toFinset) := fun l j hl =>
    Finset.mem_insert_of_mem (h.finite.mem_toFinset.mpr ⟨l, hl⟩)
  obtain ⟨turns', σ', -, hr', -, -, hend⟩ :=
    Ordered.finishes hown _ (o.height + 1) i level σ (Finset.mem_insert_self i _) h hheld (by omega)
  exact ⟨turns', σ', hr', hend⟩

end System

end RatelPlatform
