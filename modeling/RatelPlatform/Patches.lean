import RatelPlatform.Transaction

/-!
# What a transaction may write

`m.Patches Q p` says of a transaction that has written `p` so far and has `m` before
it: whatever its statements see, if it ends with a result, then `Q` holds of that and
of everything it has written. It speaks of no state, so no other session can disturb
it: a session keeps it from statement to statement (`Patches.advance`), and at the
commit it is what the commit publishes.
-/

namespace RatelPlatform

variable {D K E : Type} {α β γ : Type}

namespace Tx

theorem bind_assoc (m : Tx D K E α) (f : α → Tx D K E β) (g : β → Tx D K E γ) :
    (m >>= f) >>= g = m >>= fun a => f a >>= g := by
  change (m.bind f).bind g = m.bind fun a => (f a).bind g
  induction m with
  | ret a => rfl
  | fail e => rfl
  | read sel k ih =>
    simp only [Tx.bind]
    congr 1
    funext b
    exact ih b
  | write locks f k ih =>
    simp only [Tx.bind]
    congr 1
    funext b
    exact ih b

/-- Whatever the statements see, a result and all that is written satisfy `Q`. -/
def Patches (Q : α → (D → D) → Prop) : Tx D K E α → (D → D) → Prop
  | ret a, p => Q a p
  | fail _, _ => True
  | read _ k, p => ∀ b, (k b).Patches Q p
  | write _ f k, p => ∀ d b q, f d = .ok (b, q) → (k b).Patches Q fun d => q (p d)

variable {Q Q' : α → (D → D) → Prop} {p : D → D}

/-- A weaker statement of what is written. -/
theorem Patches.mono {m : Tx D K E α} (h : m.Patches Q p) (himp : ∀ a p, Q a p → Q' a p) :
    m.Patches Q' p := by
  induction m generalizing p with
  | ret a => exact himp a p h
  | fail e => trivial
  | read sel k ih => exact fun b => ih b (h b)
  | write locks f k ih => exact fun d b q hf => ih b (h d b q hf)

/-- **One part after the other**: the second goes on from what the first has written. -/
@[simp] theorem patches_bind {m : Tx D K E α} {g : α → Tx D K E β} {Q : β → (D → D) → Prop} :
    (m >>= g).Patches Q p ↔ m.Patches (fun a p => (g a).Patches Q p) p := by
  change (m.bind g).Patches Q p ↔ _
  induction m generalizing p with
  | ret a => rfl
  | fail e => rfl
  | read sel k ih => exact forall_congr' fun b => ih b
  | write locks f k ih =>
    exact forall_congr' fun d => forall_congr' fun b => forall_congr' fun q =>
      imp_congr_right fun _ => ih b

@[simp] theorem patches_ret {a : α} : (ret a : Tx D K E α).Patches Q p ↔ Q a p := Iff.rfl

@[simp] theorem patches_fail {e : E} : (fail e : Tx D K E α).Patches Q p := trivial

@[simp] theorem patches_select {sel : D → α} :
    (select sel : Tx D K E α).Patches Q p ↔ ∀ a, Q a p := Iff.rfl

theorem patches_exec {locks : D → List K} {f : D → Except E (D → D)}
    {Q : Unit → (D → D) → Prop} :
    (exec locks f : Tx D K E Unit).Patches Q p ↔ ∀ d q, f d = .ok q → Q () fun d => q (p d) := by
  refine ⟨?_, ?_⟩
  · intro h d q hf
    exact h d () q (by simp only [hf, Except.map])
  · intro h d u q hf
    rcases hd : f d with e | q'
    · simp only [hd, Except.map, reduceCtorEq] at hf
    · simp only [hd, Except.map, Except.ok.injEq, Prod.mk.injEq] at hf
      obtain ⟨-, rfl⟩ := hf
      exact h d _ hd

@[simp] theorem patches_require {c : Prop} [Decidable c] {e : E} {Q : Unit → (D → D) → Prop} :
    (require c e : Tx D K E Unit).Patches Q p ↔ (c → Q () p) := by
  simp only [require]
  split_ifs with h
  · exact (imp_iff_right h).symm
  · exact (iff_true_right fun hc => absurd hc h).mpr trivial

@[simp] theorem patches_orFail {o : Option α} {e : E} :
    (orFail o e : Tx D K E α).Patches Q p ↔ ∀ a, o = some a → Q a p := by
  rcases o with _ | a
  · exact (iff_true_right nofun).mpr trivial
  · refine ⟨?_, ?_⟩
    · rintro h _ ⟨⟩
      exact h
    · exact fun h => h a rfl

@[simp] theorem patches_ofExcept {x : Except E α} :
    (ofExcept x : Tx D K E α).Patches Q p ↔ ∀ a, x = .ok a → Q a p := by
  rcases x with e | a
  · exact (iff_true_right nofun).mpr trivial
  · refine ⟨?_, ?_⟩
    · rintro h _ ⟨⟩
      exact h
    · exact fun h => h a rfl

/-! ## From statement to statement -/

/-- A statement that succeeds: the remaining program and the writes before and after
it, when the committed state is `d`. -/
inductive Advance (d : D) : Tx D K E α → (D → D) → Tx D K E α → (D → D) → Prop
  | read {β : Type} {sel : D → β} {k : β → Tx D K E α} {p : D → D} :
    Advance d (.read sel k) p (k (sel (p d))) p
  | write {β : Type} {locks : D → List K} {f : D → Except E (β × (D → D))}
      {k : β → Tx D K E α} {p q : D → D} {b : β} (hf : f (p d) = .ok (b, q)) :
    Advance d (.write locks f k) p (k b) fun d => q (p d)

/-- What a transaction may write it may write after its next statement. -/
theorem Patches.advance {m m' : Tx D K E α} {p' : D → D} {d : D} (h : m.Patches Q p)
    (hadvance : Advance d m p m' p') : m'.Patches Q p' := by
  cases hadvance with
  | read => exact h _
  | write hf => exact h _ _ _ hf

theorem not_advance_fail {e : E} {m' : Tx D K E α} {p' : D → D} {d : D} :
    ¬ Advance d (fail e : Tx D K E α) p m' p' := nofun

end Tx

namespace System

variable [DecidableEq K] {σ σ' : System D K E α} {turn : Turn}

/-- **What a turn does to its session**: it dies or fails, commits, or goes on by a
statement. -/
theorem next_advance (hn : σ.next turn = some σ') :
    ∃ i rest patch current, σ.sessions i = .running rest patch current ∧
      (turn = .step i ∨ turn = .kill i) ∧
      ((σ'.db = σ.db ∧ σ'.log = σ.log ∧ σ'.sessions = Function.update σ.sessions i .aborted) ∨
      (∃ a, turn = .step i ∧ rest = .ret a ∧ σ'.db = patch σ.db ∧ σ'.log = σ.log ++ [i] ∧
        σ'.sessions = Function.update σ.sessions i (.committed a)) ∨
      (turn = .step i ∧ ∃ rest' patch' current', Tx.Advance σ.db rest patch rest' patch' ∧
        σ'.db = σ.db ∧ σ'.log = σ.log ∧
        σ'.sessions = Function.update σ.sessions i (.running rest' patch' current'))) := by
  cases took_of_next hn with
  | @killed i _ _ _ hi => exact ⟨i, _, _, _, hi, .inr rfl, .inl ⟨rfl, rfl, rfl⟩⟩
  | @committed i a _ _ hi =>
    exact ⟨i, _, _, _, hi, .inl rfl, .inr (.inl ⟨a, rfl, rfl, rfl, rfl, rfl⟩)⟩
  | @failed i _ _ _ hi => exact ⟨i, _, _, _, hi, .inl rfl, .inl ⟨rfl, rfl, rfl⟩⟩
  | @read i _ _ _ _ _ hi =>
    exact ⟨i, _, _, _, hi, .inl rfl, .inr (.inr ⟨rfl, _, _, _, .read, rfl, rfl, rfl⟩)⟩
  | @violated i _ _ _ _ _ _ _ hi => exact ⟨i, _, _, _, hi, .inl rfl, .inl ⟨rfl, rfl, rfl⟩⟩
  | @wrote i _ _ _ _ _ _ _ _ hi _ hf =>
    exact ⟨i, _, _, _, hi, .inl rfl, .inr (.inr ⟨rfl, _, _, _, .write hf, rfl, rfl, rfl⟩)⟩

theorem notMem_log_snoc {log : List ℕ} {j k : ℕ} : j ∉ log ++ [k] ↔ j ∉ log ∧ j ≠ k := by
  rw [List.mem_append, List.mem_singleton, not_or]

/-- What comes behind an entry of a log that has grown by one. -/
theorem log_snoc {log before after : List ℕ} {i j k : ℕ}
    (h : log ++ [k] = before ++ i :: after) (hj : j ∈ after) :
    (∃ after', log = before ++ i :: after' ∧ j ∈ after') ∨ (i ∈ log ∧ j = k) := by
  rcases List.eq_nil_or_concat' after with rfl | ⟨after', l, rfl⟩
  · exact absurd hj List.not_mem_nil
  · rw [← List.cons_append, ← List.append_assoc] at h
    obtain ⟨rfl, hl⟩ := List.append_inj' h rfl
    obtain rfl := List.singleton_inj.mp hl
    rcases List.mem_append.mp hj with hj | hj
    · exact .inl ⟨after', rfl, hj⟩
    · exact .inr ⟨List.mem_append_right _ List.mem_cons_self, List.mem_singleton.mp hj⟩

end System

end RatelPlatform
