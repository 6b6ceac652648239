import RatelPlatform.Table

/-!
# Tables whose rows have owners

`ofOwner owner o t` is what the owner `o` has in a table. A write of one owner that inserts
a row of its own, or overwrites one (`OwnInsert`), leaves what the others have as it is.
-/

namespace RatelPlatform.Table

universe u v w

variable {κ : Type u} {ρ : Type v} {ι : Type w} [DecidableEq κ] [DecidableEq ι]
  {owner : ρ → ι} {o o' : ι} {t t' : Table κ ρ} {k : κ} {row : ρ}

/-- `SELECT * WHERE owner = o`, by key. -/
def ofOwner (owner : ρ → ι) (o : ι) (t : Table κ ρ) (k : κ) : Option ρ :=
  (t.lookup k).filter fun row => owner row = o

theorem ofOwner_eq_some :
    ofOwner owner o t k = some row ↔ t.lookup k = some row ∧ owner row = o := by
  simp [ofOwner, Option.filter_eq_some_iff]

theorem ofOwner_eq_none : ofOwner owner o t k = none ↔ ∀ row ∈ t.lookup k, owner row ≠ o := by
  simp [ofOwner, Option.filter_eq_none_iff]

/-- Where the owner has the same rows, each of them is in both tables. -/
theorem lookup_eq_of_ofOwner_eq (h : ofOwner owner o t k = ofOwner owner o t' k)
    (hrow : t.lookup k = some row) (howner : owner row = o) : t'.lookup k = some row := by
  have hmine := ofOwner_eq_some.mpr ⟨hrow, howner⟩
  rw [h] at hmine
  exact (ofOwner_eq_some.mp hmine).1

/-- The owner inserts a row. -/
theorem ofOwner_insert (howner : owner row = o) :
    ofOwner owner o (t.insert k row) = Function.update (ofOwner owner o t) k (some row) := by
  funext k'
  simp only [ofOwner, lookup_insert_ite, Function.update_apply]
  split_ifs
  · simp [howner]
  · rfl

/-- A row of the owner is inserted where there was none, or one of the same owner. -/
def OwnInsert (owner : ρ → ι) (o : ι) (t t' : Table κ ρ) : Prop :=
  ∃ k row, t' = t.insert k row ∧ owner row = o ∧ ∀ old ∈ t.lookup k, owner old = o

/-- **The others** have what they had. -/
theorem OwnInsert.ofOwner_ne (h : OwnInsert owner o t t') (hne : o' ≠ o) :
    ofOwner owner o' t' = ofOwner owner o' t := by
  obtain ⟨k, row, rfl, rfl, hold⟩ := h
  funext k'
  simp only [ofOwner, lookup_insert_ite]
  split_ifs with hk
  · subst hk
    have hnone : ofOwner owner o' t k' = none :=
      ofOwner_eq_none.mpr fun old hmem heq => hne (heq.symm.trans (hold old hmem))
    simp only [ofOwner] at hnone
    simp [hnone, hne.symm]
  · rfl

omit [DecidableEq ι] in
/-- No row changes its owner. -/
theorem OwnInsert.keeps (h : OwnInsert owner o t t') (hrow : t.lookup k = some row) :
    ∃ row', t'.lookup k = some row' ∧ owner row' = owner row := by
  obtain ⟨k', row', rfl, rfl, hold⟩ := h
  rw [lookup_insert_ite]
  split_ifs with hk
  · subst hk
    exact ⟨row', rfl, (hold row hrow).symm⟩
  · exact ⟨row, hrow, rfl⟩

end RatelPlatform.Table
