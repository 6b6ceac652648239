import Mathlib.Data.List.Perm.Basic
import RatelPlatform.CriticalSection
import RatelPlatform.ExpenseRows
import RatelPlatform.WrittenRows

/-!
# Expense numbers

A new expense, drafted or correcting another one, draws the next number of its
organization from a counter that is incremented under its row lock; the lock is held
until the transaction ends, and a transaction that fails takes its increment back.

So the numbers of the stored expenses of an organization are those of `1` to `n`, each
used once (`Store.Numbered`): after any commands one at a time (`Runs.numbered`), and
after any interleaving of transactions that create expenses (`numbers_without_gaps`).
-/

namespace RatelPlatform

open ExpenseRepository (formatExpenseNumber)

/-! ## Texts of numbers -/

/-- The padding does not matter to the value. -/
theorem formatExpenseNumber_injective {m n : ℕ} (h : formatExpenseNumber m = formatExpenseNumber n) :
    m = n := by
  have hvalue : ∀ k, Nat.ofDigitChars 10
      (List.replicate (6 - (Nat.toDigits 10 k).length) '0' ++ Nat.toDigits 10 k) 0 = k := by
    intro k
    rw [Nat.ofDigitChars_append, Nat.ofDigitChars_replicate_zero, Nat.mul_zero,
      Nat.ofDigitChars_ten_toDigits]
  simp only [formatExpenseNumber, String.append_right_inj] at h
  rw [← hvalue m, String.ofList_injective h, hvalue n]

/-! ## The numbers of an organization -/

variable {d d' : Store} {organizationId id : Id}

/-- The number the next expense draws. -/
def Store.nextNumber (d : Store) (organizationId : Id) : ℕ :=
  (d.expenseNumberSequences.lookup organizationId).getD 1

/-- The numbers of the stored expenses of an organization. -/
def Store.expenseNumbers (d : Store) (organizationId : Id) : List String :=
  (d.expenses.rows.filter fun e => e.2.organizationId = organizationId).map (·.2.expenseNumber)

/-- The expense is stored with this number, for the organization. -/
def Store.HasNumber (d : Store) (organizationId id : Id) (number : String) : Prop :=
  ∃ row, d.expenses.lookup id = some row ∧ row.organizationId = organizationId ∧
    row.expenseNumber = number

/-- The numbers in use are those below the next one, each used once. -/
structure Store.Numbered (d : Store) (organizationId : Id) : Prop where
  pos : 1 ≤ d.nextNumber organizationId
  /-- a stored number was drawn -/
  drawn : ∀ id number, d.HasNumber organizationId id number →
    ∃ k, 1 ≤ k ∧ k < d.nextNumber organizationId ∧ number = formatExpenseNumber k
  /-- a number that was drawn is stored -/
  used : ∀ k, 1 ≤ k → k < d.nextNumber organizationId →
    ∃ id, d.HasNumber organizationId id (formatExpenseNumber k)
  distinct : ∀ id₁ id₂ number, d.HasNumber organizationId id₁ number →
    d.HasNumber organizationId id₂ number → id₁ = id₂

/-- Another expense is stored under the next number. -/
structure Store.Draws (organizationId id : Id) (d d' : Store) : Prop where
  sequence : d'.expenseNumberSequences =
    d.expenseNumberSequences.insert organizationId (d.nextNumber organizationId + 1)
  row : ∃ row, d'.expenses = d.expenses.insert id row ∧ row.organizationId = organizationId ∧
    row.expenseNumber = formatExpenseNumber (d.nextNumber organizationId)

namespace Store

theorem Draws.nextNumber (h : Draws organizationId id d d') :
    d'.nextNumber organizationId = d.nextNumber organizationId + 1 := by
  simp [Store.nextNumber, h.sequence]

theorem Draws.hasNumber_iff {id' : Id} {number : String} (h : Draws organizationId id d d')
    (hnew : d.expenses.lookup id = none) : d'.HasNumber organizationId id' number ↔
      d.HasNumber organizationId id' number ∨
        (id' = id ∧ number = formatExpenseNumber (d.nextNumber organizationId)) := by
  obtain ⟨row, hexpenses, horg, hnumber⟩ := h.row
  simp only [HasNumber, hexpenses, Table.lookup_insert_ite]
  by_cases hid : id' = id
  · subst hid
    simp [hnew, horg, ← hnumber, eq_comm]
  · simp [hid]

/-- **One more expense**: the numbers go on without a gap. -/
theorem Numbered.draw (h : d.Numbered organizationId) (hnew : d.expenses.lookup id = none)
    (hdraws : Draws organizationId id d d') : d'.Numbered organizationId := by
  have hnext := hdraws.nextNumber
  -- the new number is larger than those in use
  have hlarger : ∀ id', ¬ d.HasNumber organizationId id'
      (formatExpenseNumber (d.nextNumber organizationId)) := by
    intro id' hhas
    obtain ⟨k, -, hk, heq⟩ := h.drawn id' _ hhas
    exact Nat.ne_of_gt hk (formatExpenseNumber_injective heq)
  constructor
  · rw [hnext]
    exact Nat.le_add_left 1 _
  · intro id' number hhas
    rw [hnext]
    rcases (hdraws.hasNumber_iff hnew).mp hhas with hhas | ⟨-, rfl⟩
    · obtain ⟨k, hpos, hk, rfl⟩ := h.drawn id' number hhas
      exact ⟨k, hpos, Nat.lt_succ_of_lt hk, rfl⟩
    · exact ⟨_, h.pos, Nat.lt_succ_self _, rfl⟩
  · intro k hpos hk
    rw [hnext] at hk
    rcases Nat.lt_succ_iff_lt_or_eq.mp hk with hk | rfl
    · obtain ⟨id', hhas⟩ := h.used k hpos hk
      exact ⟨id', (hdraws.hasNumber_iff hnew).mpr (.inl hhas)⟩
    · exact ⟨id, (hdraws.hasNumber_iff hnew).mpr (.inr ⟨rfl, rfl⟩)⟩
  · intro id₁ id₂ number h₁ h₂
    rw [hdraws.hasNumber_iff hnew] at h₁ h₂
    rcases h₁ with h₁ | ⟨rfl, rfl⟩
    · rcases h₂ with h₂ | ⟨rfl, rfl⟩
      · exact h.distinct id₁ id₂ number h₁ h₂
      · exact absurd h₁ (hlarger id₁)
    · rcases h₂ with h₂ | ⟨rfl, -⟩
      · exact absurd h₂ (hlarger id₂)
      · rfl

/-- Where the numbers are the same, they are without a gap as before. -/
theorem Numbered.of_same (h : d.Numbered organizationId)
    (hnext : d'.nextNumber organizationId = d.nextNumber organizationId)
    (hsame : ∀ id number, d'.HasNumber organizationId id number ↔
      d.HasNumber organizationId id number) : d'.Numbered organizationId where
  pos := by
    rw [hnext]
    exact h.pos
  drawn := by
    intro id number hhas
    rw [hnext]
    exact h.drawn id number ((hsame id number).mp hhas)
  used := by
    intro k hpos hk
    rw [hnext] at hk
    obtain ⟨id, hhas⟩ := h.used k hpos hk
    exact ⟨id, (hsame id _).mpr hhas⟩
  distinct := fun id₁ id₂ number h₁ h₂ =>
    h.distinct id₁ id₂ number ((hsame id₁ number).mp h₁) ((hsame id₂ number).mp h₂)

/-- The expenses of another organization. -/
theorem Numbered.other {organizationId' : Id} (h : d.Numbered organizationId')
    (hne : organizationId' ≠ organizationId) (hnew : d.expenses.lookup id = none)
    (hdraws : Draws organizationId id d d') : d'.Numbered organizationId' := by
  obtain ⟨row, hexpenses, horg, -⟩ := hdraws.row
  apply h.of_same
  · simp [Store.nextNumber, hdraws.sequence, Finmap.lookup_insert_of_ne _ hne]
  · intro id' number
    simp only [HasNumber, hexpenses, Table.lookup_insert_ite]
    by_cases hid : id' = id
    · subst hid
      simp [hnew, horg, Ne.symm hne]
    · simp [hid]

theorem mem_expenseNumbers_iff {number : String} :
    number ∈ d.expenseNumbers organizationId ↔ ∃ id, d.HasNumber organizationId id number := by
  simp only [expenseNumbers, List.mem_map, List.mem_filter, decide_eq_true_eq, Prod.exists,
    Table.mem_rows_iff, HasNumber]
  refine ⟨?_, ?_⟩
  · rintro ⟨id, row, ⟨hrow, horg⟩, hnumber⟩
    exact ⟨id, row, hrow, horg, hnumber⟩
  · rintro ⟨id, row, hrow, horg, hnumber⟩
    exact ⟨id, row, ⟨hrow, horg⟩, hnumber⟩

theorem Numbered.nodup (h : d.Numbered organizationId) : (d.expenseNumbers organizationId).Nodup := by
  refine List.Nodup.map_on ?_ (d.expenses.nodup_rows.filter _)
  rintro ⟨id₁, row₁⟩ h₁ ⟨id₂, row₂⟩ h₂ heq
  simp only [List.mem_filter, Table.mem_rows_iff, decide_eq_true_eq] at h₁ h₂
  obtain rfl : id₁ = id₂ := h.distinct id₁ id₂ _ ⟨row₁, h₁.1, h₁.2, rfl⟩ ⟨row₂, h₂.1, h₂.2, heq.symm⟩
  rw [Option.some.inj (h₁.1.symm.trans h₂.1)]

/-- The numbers are those of `1` to the number of expenses. -/
theorem Numbered.perm (h : d.Numbered organizationId) :
    (d.expenseNumbers organizationId).Perm
      ((List.range' 1 (d.expenseNumbers organizationId).length).map formatExpenseNumber) := by
  have hall : (d.expenseNumbers organizationId).Perm
      ((List.range' 1 (d.nextNumber organizationId - 1)).map formatExpenseNumber) := by
    have hnodup : ((List.range' 1 (d.nextNumber organizationId - 1)).map formatExpenseNumber).Nodup :=
      (List.nodup_range' 1).map fun _ _ => formatExpenseNumber_injective
    apply (List.perm_ext_iff_of_nodup h.nodup hnodup).mpr
    intro number
    rw [mem_expenseNumbers_iff]
    simp only [List.mem_map, List.mem_range'_1]
    refine ⟨?_, ?_⟩
    · rintro ⟨id, hhas⟩
      obtain ⟨k, hpos, hk, rfl⟩ := h.drawn id number hhas
      exact ⟨k, ⟨hpos, by omega⟩, rfl⟩
    · rintro ⟨k, ⟨hpos, hk⟩, rfl⟩
      exact h.used k hpos (by omega)
  have hlength := hall.length_eq
  rw [List.length_map, List.length_range'] at hlength
  rw [hlength]
  exact hall

theorem numbered_initial (administration : Administration) (organizationId : Id) :
    (initial administration).Numbered organizationId := by
  have hnone : ∀ id number, ¬ (initial administration).HasNumber organizationId id number := by
    rintro id number ⟨row, hrow, -⟩
    cases hrow
  constructor
  · exact Nat.le_refl 1
  · exact fun id number hhas => absurd hhas (hnone id number)
  · intro k hpos hk
    exact absurd hpos (Nat.not_le_of_lt hk)
  · exact fun id₁ id₂ number h₁ _ => absurd h₁ (hnone id₁ number)

end Store

/-! ## The transactions that create an expense -/

/-- Drawing a number gives the next one. -/
theorem nextExpenseNumber_draws {number : String}
    (h : (ExpenseRepository.nextExpenseNumber organizationId).solo d = .ok (number, d')) :
    number = formatExpenseNumber (d.nextNumber organizationId) ∧
      d' = { d with expenseNumberSequences :=
        d.expenseNumberSequences.insert organizationId (d.nextNumber organizationId + 1) } := by
  simp only [ExpenseRepository.nextExpenseNumber, Tx.solo_bind_ok, Tx.pure_eq, Tx.solo_ret] at h
  obtain ⟨nextValue, d₁, hw, hret⟩ := h
  cases hret
  rw [Tx.solo] at hw
  split at hw
  · cases hw
  · next b patch hf =>
    simp only [except_bind_ok, except_pure_ok, Prod.mk.injEq] at hf
    obtain ⟨-, -, rfl, rfl⟩ := hf
    cases hw
    rw [Store.nextNumber]
    rcases d.expenseNumberSequences.lookup organizationId with _ | n
    · exact ⟨rfl, rfl⟩
    · exact ⟨rfl, rfl⟩

/-- Whoever draws a number enters under the counter. -/
theorem enters_nextExpenseNumber {cont : String → StoreTx Unit} {G : Store → Store → Prop}
    (h : ∀ d a d', (ExpenseRepository.nextExpenseNumber organizationId >>= cont).solo d =
      .ok (a, d') → G d d') :
    (ExpenseRepository.nextExpenseNumber organizationId >>= cont).Enters
      (.expenseNumberSequence organizationId) G :=
  fun d => ⟨List.mem_singleton_self _, h d⟩

variable {env : Env} {cmd : ExpenseCommand}

/-- **Creating an expense** enters under the counter of the organization, and stores
an expense under the next number. -/
theorem ExpenseCommand.enters (env : Env) (h : cmd.isCreating = true) :
    (cmd.program env).Enters (.expenseNumberSequence cmd.organizationId) fun d d' =>
      d.expenses.lookup env.uuid = none → Store.Draws cmd.organizationId env.uuid d d' := by
  cases cmd with
  | create cmd =>
    simp only [program, Tx.discard, createExpense, Tx.bind_assoc]
    apply Tx.Looks.enters
    apply looks_requireOpenPeriod
    intro period
    apply Tx.Looks.enters
    apply looks_assertActive
    apply Tx.Looks.enters
    apply looks_assertActive
    apply Tx.Looks.enters
    apply looks_assertActiveIfGiven
    apply Tx.Looks.enters
    apply looks_assertActiveIfGiven
    apply enters_nextExpenseNumber
    intro d a d' hok hnew
    simp only [Tx.solo_bind_ok, Tx.solo_ofExcept_ok, enqueue_ok, Tx.pure_eq, Tx.solo_ret] at hok
    obtain ⟨number, _, hnumber, amount, _, ⟨-, rfl⟩, e, _, ⟨hcreate, rfl⟩, _, _, hsave, _, _, rfl,
      _, _, hret, hret'⟩ := hok
    obtain ⟨rfl, rfl⟩ := nextExpenseNumber_draws hnumber
    obtain ⟨-, rfl⟩ := Expense.create_ok.mp hcreate
    obtain ⟨-, rfl⟩ := ExpenseRepository.save_new_ok hnew hsave
    cases hret
    cases hret'
    exact ⟨rfl, _, rfl, rfl, rfl⟩
  | createAdjustment cmd =>
    simp only [program, Tx.discard, RatelPlatform.createAdjustment, Tx.bind_assoc]
    apply Tx.Looks.enters
    apply looks_requireOpenPeriod
    intro period
    apply Tx.Looks.enters
    apply looks_findExpense
    intro original horiginal
    apply enters_nextExpenseNumber
    intro d a d' hok hnew
    simp only [Tx.solo_bind_ok, Tx.solo_ofExcept_ok, enqueue_ok, Tx.pure_eq, Tx.solo_ret,
      startAdjustmentApproval_ok] at hok
    obtain ⟨number, _, hnumber, e, _, ⟨hcreate, rfl⟩, _, _, hsave, _, _, ⟨-, rfl⟩, _, _, rfl,
      _, _, hret, hret'⟩ := hok
    obtain ⟨rfl, rfl⟩ := nextExpenseNumber_draws hnumber
    obtain ⟨-, -, -, rfl⟩ := Expense.createAdjustment_ok.mp hcreate
    obtain ⟨-, rfl⟩ := ExpenseRepository.save_new_ok hnew hsave
    cases hret
    cases hret'
    exact ⟨rfl, _, rfl, horiginal, rfl⟩
  | submit | approve | reject | cancel => cases h

/-! ## Commands one at a time -/

/-- The other commands leave the counters alone. -/
theorem ExpenseCommand.keepsCounters {a : Unit} (hcreating : cmd.isCreating = false)
    (hal : d.RecordsAligned) (h : (cmd.program env).solo d = .ok (a, d')) :
    d'.expenseNumberSequences = d.expenseNumberSequences := by
  cases cmd with
  | create | createAdjustment => cases hcreating
  | submit cmd =>
    obtain ⟨_, -, -, -, -, -, rfl⟩ := submitExpense_ok h
    rfl
  | approve cmd =>
    obtain ⟨_, _, _, -, -, -, -, -, -, -, -, -, rfl⟩ := approveExpense_ok hal h
    rfl
  | reject cmd =>
    obtain ⟨_, _, -, -, -, -, -, -, -, rfl⟩ := rejectExpense_ok hal h
    rfl
  | cancel cmd =>
    obtain ⟨_, -, -, -, -, rfl⟩ := cancelExpense_ok h
    rfl

theorem PayrollCommand.keepsCounters {cmd : PayrollCommand} {a : Unit} (hal : d.RecordsAligned)
    (hnew : d.payrollRuns.lookup env.uuid = none) (h : (cmd.program env).solo d = .ok (a, d')) :
    d'.expenseNumberSequences = d.expenseNumberSequences := by
  cases cmd with
  | create cmd =>
    obtain ⟨_, h⟩ := Tx.solo_discard_ok.mp h
    obtain ⟨_, -, rfl⟩ := createPayrollRun_ok hnew h
    rfl
  | addPayslip cmd =>
    obtain ⟨_, h⟩ := Tx.solo_discard_ok.mp h
    obtain ⟨_, _, -, -, -, -, -, -, rfl⟩ := addPayslip_ok h
    rfl
  | submit cmd =>
    obtain ⟨_, -, -, -, -, -, -, -, rfl⟩ := (@submitPayrollRun_ok env _ _ _ _).mp h
    rfl
  | approve cmd =>
    obtain ⟨_, _, _, -, -, -, -, -, -, -, -, -, -, rfl⟩ := (approvePayrollRun_ok hal).mp h
    rfl
  | reject cmd =>
    obtain ⟨_, _, -, -, -, -, -, -, -, rfl⟩ := rejectPayrollRun_ok hal h
    rfl
  | cancel cmd =>
    obtain ⟨_, -, -, -, rfl⟩ := (@cancelPayrollRun_ok env _ _ _ _).mp h
    rfl
  | process cmd =>
    obtain ⟨_, -, -, -, rfl⟩ := (@processPayrollRun_ok env _ _ _ _).mp h
    rfl

/-- The status of an expense has nothing to do with its number. -/
theorem hasNumber_iff_of_sameBut
    (hforth : ∀ id row, d.expenses.lookup id = some row →
      ∃ row', d'.expenses.lookup id = some row' ∧ row.SameBut row')
    (hback : ∀ id row', d'.expenses.lookup id = some row' →
      ∃ row, d.expenses.lookup id = some row ∧ row.SameBut row') {id : Id} {number : String} :
    d'.HasNumber organizationId id number ↔ d.HasNumber organizationId id number := by
  refine ⟨?_, ?_⟩
  · rintro ⟨row', hrow', horg, hnumber⟩
    obtain ⟨row, hrow, _, _, rfl⟩ := hback id row' hrow'
    exact ⟨row, hrow, horg, hnumber⟩
  · rintro ⟨row, hrow, horg, hnumber⟩
    obtain ⟨row', hrow', _, _, rfl⟩ := hforth id row hrow
    exact ⟨_, hrow', horg, hnumber⟩

/-- A request that stores no new expense. -/
theorem Store.Numbered.of_noCreation {request : Request} (h : d.Numbered organizationId)
    (hwf : d.WellFormed) (hn : next d request = some d')
    (hnone : ∀ cmd, request.command = .expense cmd → cmd.isCreating = false)
    (hcounters : d'.expenseNumberSequences = d.expenseNumberSequences) :
    d'.Numbered organizationId := by
  apply h.of_same
  · rw [nextNumber, nextNumber, hcounters]
  · obtain ⟨hforth, hback⟩ := expenses_next hwf hn
    intro id number
    apply hasNumber_iff_of_sameBut hforth
    intro id row' hrow'
    rcases hback id row' hrow' with hrow | ⟨hnew, -, -⟩
    · exact hrow
    · obtain ⟨-, ⟨_, _, hcommand, -⟩ | ⟨_, _, hcommand, -⟩⟩ := request_of_new hwf hn hnew hrow'
      · cases hnone _ hcommand
      · cases hnone _ hcommand

/-- **One request** leaves no gap. -/
theorem Store.Numbered.next {request : Request} (h : d.Numbered organizationId)
    (hwf : d.WellFormed) (hn : next d request = some d') : d'.Numbered organizationId := by
  obtain ⟨hfresh, ⟨-, rfl⟩ | hok⟩ := next_cases hn
  · exact h
  have hnew := Finmap.lookup_eq_none.mpr hfresh.2.1
  obtain ⟨env, command⟩ := request
  cases command with
  | administer a =>
    obtain ⟨_, hp, rfl⟩ := Tx.solo_exec_ok.mp hok
    cases hp
    exact h.of_noCreation hwf hn (by simp) rfl
  | period cmd =>
    obtain ⟨_, _, rfl⟩ := PeriodCommand.frame hok
    exact h.of_noCreation hwf hn (by simp) rfl
  | payroll cmd =>
    exact h.of_noCreation hwf hn (by simp) (PayrollCommand.keepsCounters hwf.aligned
      (Finmap.lookup_eq_none.mpr hfresh.2.2.2) hok)
  | expense cmd =>
    rcases hcreating : cmd.isCreating with _ | _
    · refine h.of_noCreation hwf hn ?_ (ExpenseCommand.keepsCounters hcreating hwf.aligned hok)
      rintro _ ⟨⟩
      exact hcreating
    · have hdraws := (ExpenseCommand.enters env hcreating).solo hok hnew
      by_cases horg : organizationId = cmd.organizationId
      · subst horg
        exact h.draw hnew hdraws
      · exact h.other horg hnew hdraws

/-- In every reachable store the numbers of every organization are without a gap. -/
theorem Runs.numbered {administration : Administration} {rs : List Request}
    (hr : Runs administration rs d) (organizationId : Id) : d.Numbered organizationId := by
  have hinv : d.WellFormed ∧ d.Numbered organizationId := by
    refine hr.invariant (P := fun d => d.WellFormed ∧ d.Numbered organizationId)
      ⟨Store.wellFormed_initial administration,
        Store.numbered_initial administration organizationId⟩ ?_
    rintro d request d' ⟨hwf, h⟩ - hn
    exact ⟨hwf.next hn, h.next hwf hn⟩
  exact hinv.2

/-! ## Any interleaving -/

/-- Transactions that create an expense of an organization, by drafting one or by
correcting another. -/
structure Creations (d₀ : Store) where
  organizationId : Id
  env : ℕ → Env
  command : ℕ → ExpenseCommand
  creating : ∀ i, (command i).isCreating = true
  within : ∀ i, (command i).organizationId = organizationId
  /-- a transaction draws an id that is not in use -/
  fresh : ∀ i, d₀.expenses.lookup (env i).uuid = none
  /-- nor drawn by another one -/
  distinct : ∀ i j, (env i).uuid = (env j).uuid → i = j

/-- The transaction of a session. -/
def Creations.program {d₀ : Store} (c : Creations d₀) (i : ℕ) : StoreTx Unit :=
  (c.command i).program (c.env i)

/-- **Numbers without gaps**: whatever the transactions do, and whichever of them fail
or die, the numbers of the committed expenses are distinct, and are those of `1` to
the number of expenses; even while transactions are under way. -/
theorem numbers_without_gaps {administration : Administration} {rs : List Request} {d₀ : Store}
    (hd : Runs administration rs d₀) (c : Creations d₀)
    {ok : System Store RowLock Failure Unit → Turn → Prop} {turns : List Turn}
    {σ : System Store RowLock Failure Unit}
    (hr : Reaches System.next ok (System.init d₀ c.program) turns σ) :
    (σ.db.expenseNumbers c.organizationId).Nodup ∧
      (σ.db.expenseNumbers c.organizationId).Perm
        ((List.range' 1 (σ.db.expenseNumbers c.organizationId).length).map formatExpenseNumber) := by
  have hprograms : ∀ i, (c.program i).Enters (.expenseNumberSequence c.organizationId) fun d d' =>
      d.expenses.lookup (c.env i).uuid = none →
        Store.Draws c.organizationId (c.env i).uuid d d' := by
    intro i
    rw [← c.within i]
    exact ExpenseCommand.enters (c.env i) (c.creating i)
  have hinv : σ.db.Numbered c.organizationId ∧
      ∀ i ∉ σ.log, σ.db.expenses.lookup (c.env i).uuid = none := by
    refine System.exclusive_invariant (P := fun log d => d.Numbered c.organizationId ∧
      ∀ i ∉ log, d.expenses.lookup (c.env i).uuid = none) ?_ hprograms ?_ hr
    · exact ⟨hd.numbered c.organizationId, fun i _ => c.fresh i⟩
    · rintro log d i d' hi ⟨hnumbered, hfresh⟩ hdraws
      have hnew := hfresh i hi
      refine ⟨hnumbered.draw hnew (hdraws hnew), fun j hj => ?_⟩
      rw [List.mem_append, not_or, List.mem_singleton] at hj
      obtain ⟨row, hexpenses, -⟩ := (hdraws hnew).row
      rw [hexpenses, Finmap.lookup_insert_of_ne _ fun heq => hj.2 (c.distinct j i heq)]
      exact hfresh j hj.1
  exact ⟨hinv.1.nodup, hinv.1.perm⟩

namespace Sample

theorem noExpenses (id : Id) : (store [openJanuary]).expenses.lookup id = none := by
  rw [show (store [openJanuary]).expenses = ∅ by decide +kernel]
  exact Finmap.lookup_empty id

theorem ids_distinct (i j : ℕ) (h : 101 + i = 101 + j) : i = j :=
  Nat.add_left_cancel h

/-- User 10 enters expenses of 50000 in January. -/
def creations : Creations (store [openJanuary]) where
  organizationId := 1
  env := fun i => ⟨noon, 101 + i, 0⟩
  command := fun _ => .create
    ⟨1, ⟨.employee, 10, none⟩, 50000, "NGN", 3, 2, noon, none, none, none⟩
  creating := fun _ => rfl
  within := fun _ => rfl
  fresh := fun i => noExpenses (101 + i)
  distinct := ids_distinct

/-- The first transaction dies after it has drawn a number, the second one draws it
again. -/
def drawnTwice : List Turn :=
  List.replicate 4 (.step 0) ++ List.replicate 3 (.step 1) ++ .kill 0 ::
    List.replicate 4 (.step 1)

end Sample

/-- The second expense has the first number. -/
theorem numbers_without_gaps_sample : ∃ σ : System Store RowLock Failure Unit, σ.log = [1] ∧
    σ.db.expenseNumbers 1 = ["EXP-000001"] ∧ (σ.db.expenseNumbers 1).Nodup ∧
    (σ.db.expenseNumbers 1).Perm
      ((List.range' 1 (σ.db.expenseNumbers 1).length).map formatExpenseNumber) := by
  have hrun : (runLabels System.next
      (System.init (Sample.store [Sample.openJanuary]) Sample.creations.program)
        Sample.drawnTwice).map (fun σ => (σ.log, σ.db.expenseNumbers 1)) =
      some ([1], ["EXP-000001"]) := by
    decide +kernel
  obtain ⟨σ, hσ, hfacts⟩ := Option.map_eq_some_iff.mp hrun
  simp only [Prod.mk.injEq] at hfacts
  obtain ⟨hlog, hnumbers⟩ := hfacts
  exact ⟨σ, hlog, hnumbers, numbers_without_gaps (Sample.runs (by decide +kernel))
    Sample.creations (reaches_of_runLabels hσ)⟩

end RatelPlatform
