import RatelPlatform.Reach
import Mathlib.Data.List.Nodup
import Mathlib.Logic.Function.Basic

/-!
# Transactions: one program, two readings

`Tx D K E α` is the syntax of a database transaction over states `D`: a free
monad over the two kinds of SQL statement, `read` (a `SELECT`, which sees some
part of the state) and `write` (which takes row locks `K`, may fail a
constraint, and otherwise patches the state), plus failure with an error `E`.
One program is read in two ways:

* `solo` runs it alone from a state, the way it behaves when commands are
  executed one at a time. A failure keeps nothing: the transaction rolls back.
* `System.next` interleaves any number of them, statement by statement, under
  **READ COMMITTED**: a statement sees the rows committed when it starts plus
  the transaction's own writes; a write waits while another transaction holds
  one of its row locks; locks are held to the end; a commit publishes the
  patch in one go.

The bridge between the two readings is `System.serial_of_current`: a run in
which every transaction commits *current* (each of its statements would still
see what it saw) has the committed state of the solo runs in commit order.
-/

namespace RatelPlatform

universe u

/-- Transaction programs over states `D` with row locks `K` and errors `E`. -/
inductive Tx (D K E : Type) (α : Type) : Type 1 where
  /-- commit with a result -/
  | ret : α → Tx D K E α
  /-- roll back with an error -/
  | fail : E → Tx D K E α
  /-- a `SELECT` -/
  | read {β : Type} : (D → β) → (β → Tx D K E α) → Tx D K E α
  /-- an `INSERT`, `UPDATE` or upsert: the rows it locks, and what it does -/
  | write {β : Type} :
      (D → List K) → (D → Except E (β × (D → D))) → (β → Tx D K E α) → Tx D K E α

namespace Tx

variable {D K E : Type} {α β γ : Type}

/-- Sequencing: graft a continuation onto every `ret`. -/
protected def bind : Tx D K E α → (α → Tx D K E β) → Tx D K E β
  | ret a, g => g a
  | fail e, _ => fail e
  | read sel k, g => read sel fun b => (k b).bind g
  | write locks f k, g => write locks f fun b => (k b).bind g

instance : Monad (Tx D K E) where
  pure := ret
  bind := Tx.bind

@[simp] theorem pure_eq (a : α) : (pure a : Tx D K E α) = ret a := rfl

@[simp] theorem ret_bind (a : α) (g : α → Tx D K E β) : (ret a >>= g) = g a := rfl

@[simp] theorem fail_bind (e : E) (g : α → Tx D K E β) : (fail e >>= g) = fail e := rfl

/-! ## Statements -/

/-- `SELECT`: hand back what the statement sees. -/
def select (sel : D → β) : Tx D K E β := read sel ret

/-- A write that returns nothing. -/
def exec (locks : D → List K) (f : D → Except E (D → D)) : Tx D K E Unit :=
  write locks (fun d => (f d).map fun patch => ((), patch)) ret

/-- Go on only when `p` holds; roll back with `e` otherwise. -/
def require (p : Prop) [Decidable p] (e : E) : Tx D K E Unit :=
  if p then ret () else fail e

/-- Roll back with `e` when there is no value. -/
def orFail (o : Option α) (e : E) : Tx D K E α :=
  match o with
  | some a => ret a
  | none => fail e

/-- Drop the result. -/
def discard (m : Tx D K E α) : Tx D K E Unit := m >>= fun _ => ret ()

/-- Run a pure fallible step: its error rolls the transaction back. -/
def ofExcept : Except E α → Tx D K E α
  | .ok a => ret a
  | .error e => fail e

/-! ## Running alone -/

/-- The transaction executed alone from state `d`: the result and the state it
commits, or the error it rolls back with. -/
def solo : Tx D K E α → D → Except E (α × D)
  | ret a, d => .ok (a, d)
  | fail e, _ => .error e
  | read sel k, d => (k (sel d)).solo d
  | write _ f k, d =>
    match f d with
    | .error e => .error e
    | .ok (b, patch) => (k b).solo (patch d)

@[simp] theorem solo_ret (a : α) (d : D) : (ret a : Tx D K E α).solo d = .ok (a, d) := rfl

@[simp] theorem solo_fail (e : E) (d : D) : (fail e : Tx D K E α).solo d = .error e := rfl

@[simp] theorem solo_select (sel : D → β) (d : D) :
    (select sel : Tx D K E β).solo d = .ok (sel d, d) := rfl

/-- Inversion for sequencing: both parts succeed, one after the other. -/
theorem solo_bind_ok {m : Tx D K E α} {g : α → Tx D K E β} {d d' : D} {b : β} :
    (m >>= g).solo d = .ok (b, d') ↔
      ∃ a d₁, m.solo d = .ok (a, d₁) ∧ (g a).solo d₁ = .ok (b, d') := by
  change (m.bind g).solo d = _ ↔ _
  induction m generalizing d with
  | ret a =>
    refine ⟨?_, ?_⟩
    · intro h
      exact ⟨a, d, rfl, h⟩
    · rintro ⟨a', d₁, h, hg⟩
      cases h
      exact hg
  | fail e =>
    refine ⟨?_, ?_⟩
    · intro h
      cases h
    · rintro ⟨a, d₁, h, -⟩
      cases h
  | read sel k ih => exact ih (sel d)
  | write locks f k ih =>
    simp only [Tx.bind, solo]
    rcases f d with e | ⟨b', patch⟩
    · simp
    · exact ih b'

/-- Going on from a part that succeeds. -/
theorem solo_bind_of_ok {m : Tx D K E α} {g : α → Tx D K E β} {d d₁ : D} {a : α}
    (h : m.solo d = .ok (a, d₁)) : (m >>= g).solo d = (g a).solo d₁ := by
  change (m.bind g).solo d = _
  induction m generalizing d with
  | ret a' =>
    cases h
    rfl
  | fail e => cases h
  | read sel k ih => exact ih (sel d) h
  | write locks f k ih =>
    simp only [Tx.bind, solo] at h ⊢
    rcases hf : f d with e | ⟨b', patch⟩
    · rw [hf] at h
      cases h
    · rw [hf] at h
      exact ih b' h

/-- A read in front of a program. -/
@[simp] theorem solo_select_bind (sel : D → β) (g : β → Tx D K E α) (d : D) :
    (select sel >>= g).solo d = (g (sel d)).solo d := rfl

theorem solo_exec_ok {locks : D → List K} {f : D → Except E (D → D)} {d d' : D} {a : Unit} :
    (exec locks f : Tx D K E Unit).solo d = .ok (a, d') ↔ ∃ patch, f d = .ok patch ∧ d' = patch d := by
  simp only [exec, solo]
  rcases f d with e | patch
  · simp [Except.map]
  · simp [Except.map, eq_comm]

theorem solo_require_ok {p : Prop} [Decidable p] {e : E} {d d' : D} {a : Unit} :
    (require p e : Tx D K E Unit).solo d = .ok (a, d') ↔ p ∧ d' = d := by
  simp only [require]
  split_ifs with h
  · simp [h, eq_comm]
  · simp [h]

/-- A check that passes. -/
theorem solo_require_bind {p : Prop} [Decidable p] {e : E} {g : Unit → Tx D K E α} {d : D} (hp : p) :
    (require p e >>= g).solo d = (g ()).solo d := by
  simp only [require]
  rw [if_pos hp]
  rfl

theorem solo_orFail_ok {o : Option α} {e : E} {d d' : D} {a : α} :
    (orFail o e : Tx D K E α).solo d = .ok (a, d') ↔ o = some a ∧ d' = d := by
  rcases o with _ | a'
  · simp [orFail]
  · simp [orFail, eq_comm]

theorem solo_discard_ok {m : Tx D K E α} {d d' : D} {a : Unit} :
    (discard m).solo d = .ok (a, d') ↔ ∃ b, m.solo d = .ok (b, d') := by
  simp only [discard, solo_bind_ok, solo_ret, Except.ok.injEq, Prod.mk.injEq]
  refine ⟨?_, ?_⟩
  · rintro ⟨b, _, h, -, rfl⟩
    exact ⟨b, h⟩
  · rintro ⟨b, h⟩
    exact ⟨b, _, h, trivial, rfl⟩

theorem solo_ofExcept_ok {x : Except E α} {d d' : D} {a : α} :
    (ofExcept x : Tx D K E α).solo d = .ok (a, d') ↔ x = .ok a ∧ d' = d := by
  rcases x with e | a'
  · simp [ofExcept]
  · simp [ofExcept, eq_comm]

end Tx

/-! ## Interleaving under READ COMMITTED -/

/-- One connection running a transaction.

`patch` is everything the transaction has written so far, as a change of the
committed state; `current` says of a committed state that every statement run
so far would see in it exactly what it saw when it ran. -/
inductive Session (D K E α : Type) : Type 1 where
  /-- in progress: the remaining program, the writes so far, what was seen -/
  | running : Tx D K E α → (D → D) → (D → Prop) → Session D K E α
  /-- committed with a result -/
  | committed : α → Session D K E α
  /-- rolled back -/
  | aborted : Session D K E α

/-- A database shared by any number of sessions: the committed state, who holds
which row lock, the sessions, and the order in which they committed. -/
structure System (D K E α : Type) : Type 1 where
  /-- the committed state -/
  db : D
  /-- the session holding a row lock, if any -/
  holder : K → Option ℕ
  /-- the sessions -/
  sessions : ℕ → Session D K E α
  /-- the committed sessions, oldest first -/
  log : List ℕ

/-- What happens next: session `i` runs its next statement (or commits, once its
program is done), or it is killed (a timeout, a lost connection, the victim of
a deadlock). -/
inductive Turn where
  /-- the next statement of a session -/
  | step : ℕ → Turn
  /-- a session dies -/
  | kill : ℕ → Turn
  deriving DecidableEq

namespace System

variable {D K E α : Type} [DecidableEq K]

/-- Every session is about to run its program on the committed state `d₀`. -/
def init (d₀ : D) (programs : ℕ → Tx D K E α) : System D K E α where
  db := d₀
  holder := fun _ => none
  sessions := fun i => .running (programs i) id fun _ => True
  log := []

/-- The end of a session: its locks are released. -/
def finish (σ : System D K E α) (i : ℕ) (outcome : Session D K E α) : System D K E α :=
  { σ with
    holder := fun k => if σ.holder k = some i then none else σ.holder k
    sessions := Function.update σ.sessions i outcome }

omit [DecidableEq K] in
/-- A session that ends gives up its own locks only. -/
theorem finish_holder {σ : System D K E α} {i j : ℕ} {k : K} (outcome : Session D K E α)
    (hk : σ.holder k = some j) (hne : j ≠ i) : (σ.finish i outcome).holder k = some j := by
  simp [finish, hk, hne]

/-- The rows of `locks` are free, or session `i` holds them itself. -/
def Free (σ : System D K E α) (i : ℕ) (locks : List K) : Prop :=
  ∀ k ∈ locks, σ.holder k = none ∨ σ.holder k = some i

instance (σ : System D K E α) (i : ℕ) (locks : List K) : Decidable (σ.Free i locks) :=
  inferInstanceAs (Decidable (∀ k ∈ locks, _))

/-- One turn. A write that has to wait for a lock is not enabled; a violated
constraint rolls the transaction back. -/
def next (σ : System D K E α) : Turn → Option (System D K E α)
  | .kill i =>
    match σ.sessions i with
    | .running _ _ _ => some (σ.finish i .aborted)
    | _ => none
  | .step i =>
    match σ.sessions i with
    | .running (.ret a) patch _ =>
      some { σ.finish i (.committed a) with db := patch σ.db, log := σ.log ++ [i] }
    | .running (.fail _) _ _ => some (σ.finish i .aborted)
    | .running (.read sel k) patch current =>
      some { σ with
        sessions := Function.update σ.sessions i
          (.running (k (sel (patch σ.db))) patch
            fun d => current d ∧ sel (patch d) = sel (patch σ.db)) }
    | .running (.write locks f k) patch current =>
      if σ.Free i (locks (patch σ.db)) then
        match f (patch σ.db) with
        | .error _ => some (σ.finish i .aborted)
        | .ok (b, p) =>
          some { σ with
            holder := fun l => if l ∈ locks (patch σ.db) then some i else σ.holder l
            sessions := Function.update σ.sessions i
              (.running (k b) (fun d => p (patch d))
                fun d => current d ∧ f (patch d) = .ok (b, p)) }
      else none
    | _ => none

/-- The side condition "nobody commits on stale reads": whenever a session
commits, every statement it ran would still see what it saw. -/
def CommitsCurrent (σ : System D K E α) : Turn → Prop
  | .step i =>
    match σ.sessions i with
    | .running (.ret _) _ current => current σ.db
    | _ => True
  | .kill _ => True

/-- What becomes of the system in a turn. -/
inductive Took (σ : System D K E α) : Turn → System D K E α → Prop
  | killed {i : ℕ} {rest : Tx D K E α} {patch : D → D} {current : D → Prop}
      (hi : σ.sessions i = .running rest patch current) : Took σ (.kill i) (σ.finish i .aborted)
  | committed {i : ℕ} {a : α} {patch : D → D} {current : D → Prop}
      (hi : σ.sessions i = .running (.ret a) patch current) :
      Took σ (.step i)
        { σ.finish i (.committed a) with db := patch σ.db, log := σ.log ++ [i] }
  | failed {i : ℕ} {e : E} {patch : D → D} {current : D → Prop}
      (hi : σ.sessions i = .running (.fail e) patch current) :
      Took σ (.step i) (σ.finish i .aborted)
  | read {i : ℕ} {β : Type} {sel : D → β} {k : β → Tx D K E α} {patch : D → D}
      {current : D → Prop} (hi : σ.sessions i = .running (.read sel k) patch current) :
      Took σ (.step i) { σ with
        sessions := Function.update σ.sessions i (.running (k (sel (patch σ.db))) patch
          fun d => current d ∧ sel (patch d) = sel (patch σ.db)) }
  /-- a constraint is violated -/
  | violated {i : ℕ} {β : Type} {locks : D → List K} {f : D → Except E (β × (D → D))}
      {k : β → Tx D K E α} {patch : D → D} {current : D → Prop} {e : E}
      (hi : σ.sessions i = .running (.write locks f k) patch current)
      (hfree : σ.Free i (locks (patch σ.db))) (hf : f (patch σ.db) = .error e) :
      Took σ (.step i) (σ.finish i .aborted)
  | wrote {i : ℕ} {β : Type} {locks : D → List K} {f : D → Except E (β × (D → D))}
      {k : β → Tx D K E α} {patch p : D → D} {current : D → Prop} {b : β}
      (hi : σ.sessions i = .running (.write locks f k) patch current)
      (hfree : σ.Free i (locks (patch σ.db))) (hf : f (patch σ.db) = .ok (b, p)) :
      Took σ (.step i) { σ with
        holder := fun l => if l ∈ locks (patch σ.db) then some i else σ.holder l
        sessions := Function.update σ.sessions i (.running (k b) (fun d => p (patch d))
          fun d => current d ∧ f (patch d) = .ok (b, p)) }

/-- **What a turn can do.** -/
theorem took_of_next {σ σ' : System D K E α} {turn : Turn} (hn : σ.next turn = some σ') :
    Took σ turn σ' := by
  cases turn with
  | kill i =>
    simp only [System.next] at hn
    split at hn
    · next hi =>
      obtain rfl := Option.some.inj hn
      exact .killed hi
    · cases hn
  | step i =>
    simp only [System.next] at hn
    split at hn
    · next hi =>
      obtain rfl := Option.some.inj hn
      exact .committed hi
    · next hi =>
      obtain rfl := Option.some.inj hn
      exact .failed hi
    · next hi =>
      obtain rfl := Option.some.inj hn
      exact .read hi
    · next hi =>
      split at hn
      · next hfree =>
        split at hn
        · next hf =>
          obtain rfl := Option.some.inj hn
          exact .violated hi hfree hf
        · next hf =>
          obtain rfl := Option.some.inj hn
          exact .wrote hi hfree hf
      · cases hn
    · cases hn

omit [DecidableEq K] in
/-- After a turn, a session runs as the turn has left it, or as before. -/
theorem running_update {σ : System D K E α} {i j : ℕ} {outcome : Session D K E α}
    {rest : Tx D K E α} {patch : D → D} {current : D → Prop}
    (hj : Function.update σ.sessions i outcome j = .running rest patch current) :
    (j = i ∧ outcome = .running rest patch current) ∨
      (j ≠ i ∧ σ.sessions j = .running rest patch current) := by
  by_cases hne : j = i
  · subst hne
    rw [Function.update_self] at hj
    exact .inl ⟨rfl, hj⟩
  · rw [Function.update_of_ne hne] at hj
    exact .inr ⟨hne, hj⟩

/-- A lock another session holds is not free. -/
theorem Free.holder {σ : System D K E α} {i j : ℕ} {locks : List K} (hfree : σ.Free i locks)
    (hne : j ≠ i) {l : K} (hl : σ.holder l = some j) :
    (if l ∈ locks then some i else σ.holder l) = some j := by
  by_cases hlock : l ∈ locks
  · rcases hfree l hlock with hnone | hown
    · cases hnone.symm.trans hl
    · exact absurd (Option.some.inj (hl.symm.trans hown)) hne
  · rw [if_neg hlock]
    exact hl

/-- **What a turn can do to the session it is about**: end it without a commit,
commit it, or advance it. -/
theorem next_cases {σ σ' : System D K E α} {turn : Turn} (hn : σ.next turn = some σ') :
    ∃ i rest patch current, σ.sessions i = .running rest patch current ∧
      ((σ'.db = σ.db ∧ σ'.log = σ.log ∧ σ'.sessions = Function.update σ.sessions i .aborted) ∨
      (∃ a, turn = .step i ∧ rest = .ret a ∧ σ'.db = patch σ.db ∧ σ'.log = σ.log ++ [i] ∧
        σ'.sessions = Function.update σ.sessions i (.committed a)) ∨
      ∃ rest' patch' current', σ'.db = σ.db ∧ σ'.log = σ.log ∧
        σ'.sessions = Function.update σ.sessions i (.running rest' patch' current') ∧
        (∀ d, current' d → current d ∧ rest.solo (patch d) = rest'.solo (patch' d)) ∧
        (current σ.db → current' σ.db)) := by
  cases took_of_next hn with
  | @killed i _ _ _ hi => exact ⟨i, _, _, _, hi, .inl ⟨rfl, rfl, rfl⟩⟩
  | @committed i a _ _ hi => exact ⟨i, _, _, _, hi, .inr (.inl ⟨a, rfl, rfl, rfl, rfl, rfl⟩)⟩
  | @failed i _ _ _ hi => exact ⟨i, _, _, _, hi, .inl ⟨rfl, rfl, rfl⟩⟩
  | @read i _ _ _ _ _ hi =>
    -- a state that agrees with what it saw sends it the same way
    refine ⟨i, _, _, _, hi, .inr (.inr ⟨_, _, _, rfl, rfl, rfl, fun d hd => ⟨hd.1, ?_⟩,
      fun hc => ⟨hc, rfl⟩⟩)⟩
    rw [Tx.solo, hd.2]
  | @violated i _ _ _ _ _ _ _ hi => exact ⟨i, _, _, _, hi, .inl ⟨rfl, rfl, rfl⟩⟩
  | @wrote i _ _ _ _ _ _ _ _ hi _ hf =>
    refine ⟨i, _, _, _, hi, .inr (.inr ⟨_, _, _, rfl, rfl, rfl, fun d hd => ⟨hd.1, ?_⟩,
      fun hc => ⟨hc, hf⟩⟩)⟩
    rw [Tx.solo, hd.2]

variable {programs : ℕ → Tx D K E α} {d₀ : D} {ok : System D K E α → Turn → Prop}
  {turns : List Turn} {σ σ' : System D K E α}

/-- The log lists the committed sessions, each once. -/
theorem log_committed_nodup (hr : Reaches System.next ok (init d₀ programs) turns σ) :
    (∀ i ∈ σ.log, ∃ a, σ.sessions i = .committed a) ∧ σ.log.Nodup := by
  refine hr.invariant
    (P := fun σ => (∀ i ∈ σ.log, ∃ a, σ.sessions i = .committed a) ∧ σ.log.Nodup)
    ⟨fun _ h => (List.not_mem_nil h).elim, List.nodup_nil⟩ ?_
  rintro σ turn σ' ⟨hcommitted, hnodup⟩ - hn
  obtain ⟨i, rest, patch, current, hi, hcases⟩ := next_cases hn
  -- the session of the turn is running, so it is not one of the committed ones
  have hout : i ∉ σ.log := by
    intro hmem
    obtain ⟨a, ha⟩ := hcommitted i hmem
    cases hi.symm.trans ha
  have hothers : ∀ outcome, ∀ j ∈ σ.log,
      ∃ a, Function.update σ.sessions i outcome j = .committed a := by
    intro outcome j hj
    have hne : j ≠ i := fun h => hout (h ▸ hj)
    rw [Function.update_of_ne hne]
    exact hcommitted j hj
  rcases hcases with ⟨-, hlog, hs⟩ | ⟨a, -, -, -, hlog, hs⟩ | ⟨_, _, _, -, hlog, hs, -, -⟩
  · rw [hlog, hs]
    exact ⟨hothers _, hnodup⟩
  · rw [hlog, hs]
    refine ⟨fun j hj => ?_, List.nodup_append.mpr ⟨hnodup, List.nodup_singleton i, ?_⟩⟩
    · rcases List.mem_append.mp hj with hj | hj
      · exact hothers _ j hj
      · rw [List.mem_singleton.mp hj, Function.update_self]
        exact ⟨a, rfl⟩
    · intro j hj k hk heq
      rw [List.mem_singleton.mp hk] at heq
      exact hout (heq ▸ hj)
  · rw [hlog, hs]
    exact ⟨hothers _, hnodup⟩

/-- A session commits once. -/
theorem log_nodup (hr : Reaches System.next ok (init d₀ programs) turns σ) : σ.log.Nodup :=
  (log_committed_nodup hr).2

/-- A running session has not committed. -/
theorem running_notMem_log (hr : Reaches System.next ok (init d₀ programs) turns σ) {i : ℕ}
    {rest : Tx D K E α} {patch : D → D} {current : D → Prop}
    (hi : σ.sessions i = .running rest patch current) : i ∉ σ.log := by
  intro hmem
  obtain ⟨a, ha⟩ := (log_committed_nodup hr).1 i hmem
  cases hi.symm.trans ha

/-! ### Serial executions -/

/-- The transactions `log` executed one at a time, in that order, from `d₀`. -/
inductive Serial (programs : ℕ → Tx D K E α) (d₀ : D) : List ℕ → D → Prop
  /-- nothing executed yet -/
  | nil : Serial programs d₀ [] d₀
  /-- one more transaction, alone -/
  | snoc {log : List ℕ} {d d' : D} {i : ℕ} {a : α} :
      Serial programs d₀ log d → (programs i).solo d = .ok (a, d') →
      Serial programs d₀ (log ++ [i]) d'

/-- A running session is faithful to its program: from any committed state that
agrees with all it has seen, finishing it is running the whole program. -/
def Faithful (programs : ℕ → Tx D K E α) (σ : System D K E α) : Prop :=
  ∀ i rest patch current, σ.sessions i = .running rest patch current →
    ∀ d, current d → (programs i).solo d = rest.solo (patch d)

/-- Every turn keeps running sessions faithful. -/
theorem Faithful.next {turn : Turn} (hf : Faithful programs σ) (hn : σ.next turn = some σ') :
    Faithful programs σ' := by
  obtain ⟨i, rest, patch, current, hi, hcases⟩ := next_cases hn
  intro j rest₁ patch₁ current₁ h d hd
  rcases hcases with ⟨-, -, hs⟩ | ⟨a, -, -, -, -, hs⟩ | ⟨_, _, _, -, -, hs, hgo, -⟩
  all_goals
    rw [hs] at h
    obtain ⟨rfl, hrunning⟩ | ⟨-, hj⟩ := running_update h
  · cases hrunning
  · exact hf j _ _ _ hj d hd
  · cases hrunning
  · exact hf j _ _ _ hj d hd
  · cases hrunning
    obtain ⟨hc, he⟩ := hgo d hd
    rw [hf j _ _ _ hi d hc, he]
  · exact hf j _ _ _ hj d hd

theorem faithful_of_reaches (hr : Reaches System.next ok (init d₀ programs) turns σ) :
    Faithful programs σ := by
  refine hr.invariant ?_ fun _ _ _ hf _ hn => hf.next hn
  intro i rest patch current h d _
  cases h
  rfl

/-- **A current commit is the transaction run alone** on the state committed
before it; every other turn leaves the committed state as it was. -/
theorem Faithful.solo_of_current {turn : Turn} (hf : Faithful programs σ)
    (hcur : CommitsCurrent σ turn) (hn : σ.next turn = some σ') :
    (σ'.db = σ.db ∧ σ'.log = σ.log) ∨
      ∃ i a, (programs i).solo σ.db = .ok (a, σ'.db) ∧ σ'.log = σ.log ++ [i] := by
  obtain ⟨i, rest, patch, current, hi, hcases⟩ := next_cases hn
  rcases hcases with ⟨hdb, hlog, -⟩ | ⟨a, rfl, rfl, hdb, hlog, -⟩ | ⟨_, _, _, hdb, hlog, -⟩
  · exact .inl ⟨hdb, hlog⟩
  · have hc : current σ.db := by
      simpa only [CommitsCurrent, hi] using hcur
    refine .inr ⟨i, a, ?_, hlog⟩
    rw [hdb, hf i _ patch current hi _ hc, Tx.solo]
  · exact .inl ⟨hdb, hlog⟩

/-- **Current commits serialise**: when every session commits on reads that are
still current, the committed state is that of the committed transactions run
alone, one after another, in commit order. -/
theorem serial_of_current (hr : Reaches System.next CommitsCurrent (init d₀ programs) turns σ) :
    Serial programs d₀ σ.log σ.db := by
  induction hr with
  | nil => exact .nil
  | snoc hr hcur hn ih =>
    rcases (faithful_of_reaches hr).solo_of_current hcur hn with ⟨hdb, hlog⟩ | ⟨i, a, hsolo, hlog⟩
    · rw [hdb, hlog]
      exact ih
    · rw [hlog]
      exact .snoc ih hsolo

/-! ### Fresh commits -/

/-- A session that has run no statement has seen nothing that could be stale. -/
theorem current_of_not_begun {i : ℕ} (hr : Reaches System.next ok (init d₀ programs) turns σ)
    (hi : .step i ∉ turns) {rest : Tx D K E α} {patch : D → D} {current : D → Prop}
    (hrunning : σ.sessions i = .running rest patch current) : current σ.db := by
  suffices hall : ∀ d, current d from hall σ.db
  induction hr generalizing rest patch current with
  | nil =>
    cases hrunning
    exact fun _ => trivial
  | @snoc turns σ σ' turn hr _ hn ih =>
    rw [List.mem_append, List.mem_singleton, not_or] at hi
    have hother : ∀ j outcome, turn = .step j →
        Function.update σ.sessions j outcome i = .running rest patch current →
        ∀ d, current d := by
      rintro j outcome rfl hj
      rw [Function.update_of_ne fun hij => hi.2 (congrArg Turn.step hij)] at hj
      exact ih hi.1 hj
    cases took_of_next hn with
    | killed _ =>
      obtain ⟨-, hdone⟩ | ⟨-, hj⟩ := running_update hrunning
      · cases hdone
      · exact ih hi.1 hj
    | committed _ | failed _ | read _ | violated _ _ _ | wrote _ _ _ =>
      exact hother _ _ rfl hrunning

/-- **A fresh commit is current**: while nobody else commits, what the session has seen stays
as it was. -/
theorem reaches_fresh_commit {t : System D K E α} {i : ℕ} {turns' : List Turn}
    (hr : Reaches System.next CommitsCurrent (init d₀ programs) turns t) (hi : .step i ∉ turns)
    (hr' : Reaches System.next ok t turns' σ) (hlog : σ.log <+: t.log ++ [i]) :
    Reaches System.next CommitsCurrent (init d₀ programs) (turns ++ turns') σ := by
  suffices h : Reaches System.next CommitsCurrent (init d₀ programs) (turns ++ turns') σ ∧
      t.log <+: σ.log ∧ (σ.log = t.log → ∀ rest patch current,
        σ.sessions i = .running rest patch current → current σ.db) from h.1
  induction hr' with
  | nil =>
    rw [List.append_nil]
    exact ⟨hr, List.prefix_refl _, fun _ _ _ _ hrunning => current_of_not_begun hr hi hrunning⟩
  | @snoc turns' σ σ' turn _ _ hn ih =>
    obtain ⟨j, rest, patch, current, hj, hcases⟩ := next_cases hn
    have hbefore : σ.log <+: σ'.log := by
      rcases hcases with ⟨-, hl, -⟩ | ⟨_, -, -, -, hl, -⟩ | ⟨_, _, _, -, hl, -⟩
      · exact hl ▸ List.prefix_refl _
      · exact hl ▸ List.prefix_append _ _
      · exact hl ▸ List.prefix_refl _
    obtain ⟨hreaches, hgrows, hseen⟩ := ih (hbefore.trans hlog)
    have hcurrent : CommitsCurrent σ turn := by
      cases turn with
      | kill k => trivial
      | step k =>
        rw [CommitsCurrent]
        split
        · next a patch₁ current₁ hk =>
          -- this turn commits, so it is the session's, and the first commit since
          simp only [System.next, hk, Option.some.injEq] at hn
          rw [← hn] at hlog
          have hlength : σ.log = t.log := by
            refine (hgrows.eq_of_length_le ?_).symm
            simpa using hlog.length_le
          rw [hlength, List.prefix_append_right_inj, List.cons_prefix_cons] at hlog
          obtain rfl := hlog.1
          exact hseen hlength _ _ _ hk
        · trivial
    rw [← List.append_assoc]
    refine ⟨.snoc hreaches hcurrent hn, hgrows.trans hbefore, fun hl rest₁ patch₁ current₁ h => ?_⟩
    have hsame : σ.log = t.log := by
      refine (hgrows.eq_of_length_le ?_).symm
      rw [← hl]
      exact hbefore.length_le
    rcases hcases with ⟨hdb, -, hs⟩ | ⟨a, -, -, -, hl', -⟩ | ⟨_, _, _, hdb, -, hs, -, hc⟩
    · rw [hs] at h
      rw [hdb]
      obtain ⟨-, hrunning⟩ | ⟨-, hi'⟩ := running_update h
      · cases hrunning
      · exact hseen hsame _ _ _ hi'
    · rw [hl', hsame] at hl
      exact absurd hl (by simp)
    · rw [hs] at h
      rw [hdb]
      obtain ⟨rfl, hrunning⟩ | ⟨-, hi'⟩ := running_update h
      · cases hrunning
        exact hc (hseen hsame _ _ _ hj)
      · exact hseen hsame _ _ _ hi'

/-- The same, for an executed schedule. -/
theorem exists_reaches_fresh_commit {log : List ℕ} (i : ℕ) (turns' : List Turn)
    (h : ∃ t, Reaches System.next CommitsCurrent (init d₀ programs) turns t ∧ t.log = log)
    (hi : .step i ∉ turns)
    (hrun : (runLabels System.next (init d₀ programs) (turns ++ turns')).map System.log =
      some (log ++ [i])) :
    ∃ σ, Reaches System.next CommitsCurrent (init d₀ programs) (turns ++ turns') σ ∧
      σ.log = log ++ [i] := by
  obtain ⟨t, ht, rfl⟩ := h
  obtain ⟨σ, hσ, hlog⟩ := Option.map_eq_some_iff.mp hrun
  rw [runLabels_append, ht.runLabels_eq, Option.bind_some] at hσ
  exact ⟨σ, reaches_fresh_commit ht hi (reaches_of_runLabels hσ) (hlog ▸ List.prefix_refl _), hlog⟩

end System

end RatelPlatform
