import RatelPlatform.CriticalSection
import RatelPlatform.RelyGuarantee

/-!
# Transactions that keep a pact

In a pact, each session has a part of its own: what it may rely on of the commits of the
others while it holds locks, and what it guarantees of its own commit. What one session
guarantees, every other one that holds other locks may rely on.

A transaction *abides* by its part when, whatever the others commit between its statements,
its own commit does what it guarantees (`Tx.Abides`). As it relies on a preorder, all that it
learns is what was committed at its last statement. Then every commit, in every interleaving,
is one that its session guarantees (`Pact.Kept.next`).
-/

namespace RatelPlatform

variable {D K E : Type} {α β : Type}

/-- What each session relies on, by the locks it holds, and what it guarantees. -/
structure Pact (D K : Type) where
  rely : ℕ → Set K → D → D → Prop
  guarantee : ℕ → Set K → D → D → Prop
  refl : ∀ i held d, rely i held d d
  trans : ∀ {i held d d' d''}, rely i held d d' → rely i held d' d'' → rely i held d d''
  honoured : ∀ {i j held others d d'}, i ≠ j → OtherLocks held others →
    guarantee i held d d' → rely j others d d'

/-- Where a transaction stands. -/
structure Standing (D K : Type) where
  /-- the locks it holds -/
  held : Set K
  /-- what it has written -/
  patch : D → D
  /-- what was committed at its last statement -/
  since : D

/-- Nothing has been done yet. -/
def Standing.start (d : D) : Standing D K := ⟨∅, id, d⟩

namespace Tx

/-- Whatever the others commit meanwhile, a result is reached with `Q`. -/
def Abides (rely : Set K → D → D → Prop) (Q : α → Standing D K → Prop) :
    Tx D K E α → Standing D K → Prop
  | ret a, s => Q a s
  | fail _, _ => True
  | read sel k, s => ∀ d, rely s.held s.since d →
      (k (sel (s.patch d))).Abides rely Q { s with since := d }
  | write locks f k, s => ∀ d, rely s.held s.since d → ∀ b q, f (s.patch d) = .ok (b, q) →
      (k b).Abides rely Q ⟨s.held ∪ {l | l ∈ locks (s.patch d)}, fun d => q (s.patch d), d⟩

variable {rely : Set K → D → D → Prop} {Q : α → Standing D K → Prop} {s : Standing D K}

@[simp] theorem abides_ret {a : α} : (ret a : Tx D K E α).Abides rely Q s ↔ Q a s := Iff.rfl

/-- **One part after the other**: the second goes on from where the first stands. -/
theorem abides_bind {m : Tx D K E α} {g : α → Tx D K E β} {Q : β → Standing D K → Prop}
    (h : m.Abides rely (fun a s => (g a).Abides rely Q s) s) : (m >>= g).Abides rely Q s := by
  change (m.bind g).Abides rely Q s
  induction m generalizing s with
  | ret a => exact h
  | fail e => trivial
  | read sel k ih => exact fun d hd => ih _ (h d hd)
  | write locks f k ih => exact fun d hd b q hf => ih b (h d hd b q hf)

/-- Looking writes nothing, and asks for no lock. -/
theorem Looks.abides {m : Tx D K E α} {R : α → Prop} (h : m.Looks R)
    (hrefl : rely s.held s.since s.since)
    (htrans : ∀ {d d'}, rely s.held s.since d → rely s.held d d' → rely s.held s.since d')
    (hQ : ∀ a d, R a → rely s.held s.since d → Q a { s with since := d }) : m.Abides rely Q s := by
  suffices hgoes : ∀ d, rely s.held s.since d → m.Abides rely Q { s with since := d } from
    hgoes s.since hrefl
  induction m with
  | ret a => exact fun d hd => hQ a d h hd
  | fail e => exact fun _ _ => trivial
  | read sel k ih =>
    intro d hd d' hd'
    exact ih _ (h _) d' (htrans hd hd')
  | write locks f k ih => exact h.elim

/-- A write that returns nothing. -/
theorem abides_exec {locks : D → List K} {f : D → Except E (D → D)}
    {Q : Unit → Standing D K → Prop}
    (h : ∀ d, rely s.held s.since d → ∀ q, f (s.patch d) = .ok q →
      Q () ⟨s.held ∪ {l | l ∈ locks (s.patch d)}, fun d => q (s.patch d), d⟩) :
    (exec locks f : Tx D K E Unit).Abides rely Q s := by
  intro d hd b q hf
  rcases hq : f (s.patch d) with e | q'
  · simp [hq, Except.map] at hf
  · simp only [hq, Except.map, Except.ok.injEq, Prod.mk.injEq] at hf
    obtain ⟨-, rfl⟩ := hf
    exact h d hd _ hq

theorem abides_require {c : Prop} [Decidable c] {e : E} {Q : Unit → Standing D K → Prop}
    (h : c → Q () s) : (require c e : Tx D K E Unit).Abides rely Q s := by
  simp only [require]
  split_ifs with hc
  · exact h hc
  · trivial

theorem abides_orFail {o : Option α} {e : E} (h : ∀ a, o = some a → Q a s) :
    (orFail o e : Tx D K E α).Abides rely Q s := by
  cases o with
  | none => trivial
  | some a => exact h a rfl

theorem abides_ofExcept {x : Except E α} (h : ∀ a, x = .ok a → Q a s) :
    (ofExcept x : Tx D K E α).Abides rely Q s := by
  cases x with
  | error e => trivial
  | ok a => exact h a rfl

end Tx

namespace Pact

variable [DecidableEq K] (P : Pact D K) {σ σ' : System D K E α} {turn : Turn}

/-- Whatever is committed when the transaction commits, it does what it guarantees. -/
def Fulfils (i : ℕ) (s : Standing D K) : Prop :=
  ∀ d, P.rely i s.held s.since d → P.guarantee i s.held d (s.patch d)

/-- A session that goes on to abide by its part, under the locks it holds. -/
def Underway (σ : System D K E α) (i : ℕ) (rest : Tx D K E α) (patch : D → D) : Prop :=
  ∃ held since, (∀ l ∈ held, σ.holder l = some i) ∧ P.rely i held since σ.db ∧
    rest.Abides (P.rely i) (fun _ s => P.Fulfils i s) ⟨held, patch, since⟩

/-- Every running session abides by its part. -/
def Kept (σ : System D K E α) : Prop :=
  ∀ i rest patch current, σ.sessions i = .running rest patch current →
    P.Underway σ i rest patch

variable {P}

omit [DecidableEq K] in
theorem Kept.init {programs : ℕ → Tx D K E α} {d₀ : D}
    (hprograms : ∀ i, (programs i).Abides (P.rely i) (fun _ s => P.Fulfils i s) (.start d₀)) :
    P.Kept (System.init d₀ programs) := by
  intro i rest patch current hi
  cases hi
  exact ⟨∅, d₀, fun l hl => hl.elim, P.refl i ∅ d₀, hprograms i⟩

omit [DecidableEq K] in
/-- What another session commits, a session may rely on. -/
theorem Underway.of_rely {i : ℕ} {rest : Tx D K E α} {patch : D → D}
    (h : P.Underway σ i rest patch) (hholder : ∀ l, σ.holder l = some i → σ'.holder l = some i)
    (hrely : ∀ held, (∀ l ∈ held, σ.holder l = some i) → P.rely i held σ.db σ'.db) :
    P.Underway σ' i rest patch := by
  obtain ⟨held, since, hheld, hsince, hrest⟩ := h
  exact ⟨held, since, fun l hl => hholder l (hheld l hl), P.trans hsince (hrely held hheld), hrest⟩

omit [DecidableEq K] in
/-- A session that ends without a commit. -/
theorem Kept.finish (h : P.Kept σ) (i : ℕ) {outcome : Session D K E α}
    (hended : ∀ rest patch current, outcome ≠ .running rest patch current) :
    P.Kept (σ.finish i outcome) := by
  intro j rest patch current hj
  obtain ⟨-, hrunning⟩ | ⟨hne, hj⟩ := System.running_update hj
  · exact absurd hrunning (hended _ _ _)
  · exact (h j _ _ _ hj).of_rely (fun l hl => System.finish_holder outcome hl hne)
      fun held _ => P.refl j held σ.db

omit [DecidableEq K] in
/-- **A commit** does what its session guarantees, and all others may rely on that. -/
theorem Kept.commit (h : P.Kept σ) {i : ℕ} {a : α} {patch : D → D} {current : D → Prop}
    (hi : σ.sessions i = .running (.ret a) patch current) (log : List ℕ) :
    P.Kept { σ.finish i (.committed a) with db := patch σ.db, log := log } ∧
      ∃ held, P.guarantee i held σ.db (patch σ.db) := by
  obtain ⟨held, since, hheld, hsince, hfulfils⟩ := h i _ _ _ hi
  have hguarantee : P.guarantee i held σ.db (patch σ.db) := hfulfils σ.db hsince
  refine ⟨fun j rest patch₁ current₁ hj => ?_, held, hguarantee⟩
  obtain ⟨-, hrunning⟩ | ⟨hne, hj⟩ := System.running_update hj
  · cases hrunning
  · refine (h j _ _ _ hj).of_rely (fun l hl => System.finish_holder (.committed a) hl hne)
      fun held' hheld' => P.honoured (Ne.symm hne) (fun l hl hl' => hne ?_) hguarantee
    exact Option.some.inj ((hheld' l hl').symm.trans (hheld l hl))

omit [DecidableEq K] in
/-- A session that goes on, with at least the locks it has. -/
theorem Kept.update (h : P.Kept σ) {i : ℕ} {rest : Tx D K E α} {patch : D → D}
    {current : D → Prop} (hdb : σ'.db = σ.db)
    (hsessions : σ'.sessions = Function.update σ.sessions i (.running rest patch current))
    (hholder : ∀ j l, j ≠ i → σ.holder l = some j → σ'.holder l = some j)
    (hi : P.Underway σ' i rest patch) : P.Kept σ' := by
  intro j rest₁ patch₁ current₁ hj
  rw [hsessions] at hj
  obtain ⟨rfl, hrunning⟩ | ⟨hne, hj⟩ := System.running_update hj
  · cases hrunning
    exact hi
  · refine (h j _ _ _ hj).of_rely (fun l hl => hholder j l hne hl) fun held _ => ?_
    rw [hdb]
    exact P.refl j held σ.db

/-- **One turn** leaves every session abiding by its part; what it commits, a session
guarantees. -/
theorem Kept.next (h : P.Kept σ) (hn : σ.next turn = some σ') :
    P.Kept σ' ∧ (σ'.db = σ.db ∨ ∃ i held, P.guarantee i held σ.db σ'.db) := by
  cases System.took_of_next hn with
  | killed _ => exact ⟨h.finish _ (by simp), .inl rfl⟩
  | failed _ => exact ⟨h.finish _ (by simp), .inl rfl⟩
  | violated _ _ _ => exact ⟨h.finish _ (by simp), .inl rfl⟩
  | committed hi => exact ⟨(h.commit hi _).1, .inr ⟨_, (h.commit hi []).2⟩⟩
  | @read i β sel k patch current hi =>
    obtain ⟨held, since, hheld, hsince, hrest⟩ := h i _ _ _ hi
    exact ⟨h.update rfl rfl (fun _ _ _ hl => hl)
      ⟨held, σ.db, hheld, P.refl i held σ.db, hrest σ.db hsince⟩, .inl rfl⟩
  | @wrote i β locks f k patch q current b hi hfree hf =>
    obtain ⟨held, since, hheld, hsince, hrest⟩ := h i _ _ _ hi
    refine ⟨h.update rfl rfl (fun j l hne hl => hfree.holder hne hl)
      ⟨_, σ.db, ?_, P.refl i _ σ.db, hrest σ.db hsince b q hf⟩, .inl rfl⟩
    rintro l (hl | hl)
    · simp only [hheld l hl]
      split_ifs <;> rfl
    · exact if_pos hl

end Pact

end RatelPlatform
