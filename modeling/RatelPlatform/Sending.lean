import Mathlib.Data.List.Nodup

/-!
# Work that sends, and is cut short

A program that adds jobs to a queue one after the other, when the queue may refuse one
of them: the program then ends there, and what it sent before stays sent. What such a
program does is known from the list of jobs it would send if it were never refused
(`Sends`): it sends a prefix of it.

When it is tried again it starts from the beginning, so several attempts together send
a concatenation of prefixes. `nodup_sent_iff` says when nothing in it is there twice.
-/

namespace RatelPlatform

universe u v

/-! ## Programs -/

/-- A queue, and how many more jobs it takes before it refuses one. -/
structure Outgoing (ρ : Type u) where
  jobs : List ρ
  accepts : ℕ

/-- Programs that add jobs to a queue, and end when it refuses one. -/
abbrev Sending (ρ : Type u) (α : Type u) := OptionT (StateM (Outgoing ρ)) α

variable {ρ : Type} {α : Type v}

/-- Adds a job to the queue. -/
def Sending.add (job : ρ) : Sending ρ Unit := OptionT.mk fun q =>
  match q.accepts with
  | 0 => (none, q)
  | accepts + 1 => (some (), ⟨q.jobs ++ [job], accepts⟩)

/-- The program sends these jobs in this order, and nothing else. -/
def Sends (m : Sending ρ Unit) (jobs : List ρ) : Prop :=
  ∀ q : Outgoing ρ, m.run.run q =
    (if jobs.length ≤ q.accepts then some () else none,
      ⟨q.jobs ++ jobs.take q.accepts, q.accepts - jobs.length⟩)

namespace Sends

variable {m n : Sending ρ Unit} {jobs jobs' : List ρ}

theorem pure : Sends (Pure.pure () : Sending ρ Unit) [] := by
  rintro ⟨sent, accepts⟩
  simp only [List.length_nil, Nat.zero_le, if_true, List.take_nil, List.append_nil, Nat.sub_zero]
  rfl

theorem add (job : ρ) : Sends (Sending.add job) [job] := by
  rintro ⟨sent, _ | accepts⟩
  · simp only [List.length_singleton, List.take_zero, List.append_nil, Nat.zero_sub]
    rfl
  · simp only [List.length_singleton, Nat.succ_le_succ (Nat.zero_le accepts), if_true,
      List.take_succ_cons, List.take_nil, Nat.add_sub_cancel]
    rfl

/-- One after the other: the second runs with what the first left it. -/
theorem seq (hm : Sends m jobs) (hn : Sends n jobs') :
    Sends (m >>= fun _ => n) (jobs ++ jobs') := by
  rintro ⟨sent, accepts⟩
  have hbind : (m >>= fun _ => n).run.run ⟨sent, accepts⟩ =
      match m.run.run ⟨sent, accepts⟩ with
      | (some _, q) => n.run.run q
      | (none, q) => (none, q) := by
    rcases hrun : m.run.run ⟨sent, accepts⟩ with ⟨_ | _, q⟩
    · simp only [OptionT.run_bind, Option.elimM, StateT.run_bind, hrun]
      rfl
    · simp only [OptionT.run_bind, Option.elimM, StateT.run_bind, hrun]
      rfl
  rw [hbind, hm]
  by_cases hle : jobs.length ≤ accepts
  · have htake : jobs.take accepts = jobs := List.take_of_length_le hle
    have hlength : (jobs ++ jobs').length ≤ accepts ↔ jobs'.length ≤ accepts - jobs.length := by
      rw [List.length_append]
      omega
    simp only [if_pos hle, hn _, htake, List.take_append, List.append_assoc, List.length_append,
      Nat.sub_sub, ← hlength]
  · have hlength : ¬ (jobs ++ jobs').length ≤ accepts := by
      rw [List.length_append]
      omega
    have hnone : accepts - jobs.length = 0 := by omega
    have hnone' : accepts - (jobs ++ jobs').length = 0 := by omega
    simp only [if_neg hle, if_neg hlength, List.take_append, hnone, hnone', List.take_zero,
      List.append_nil]

/-- A loop sends what its turns send. -/
theorem forM {f : α → Sending ρ PUnit} {g : α → List ρ} (hf : ∀ x, Sends (f x) (g x)) (xs : List α) :
    Sends (xs.forM f) (xs.flatMap g) := by
  induction xs with
  | nil => exact pure
  | cons x xs ih => exact (hf x).seq ih

/-- What is on the queue afterwards. -/
theorem jobs_eq (hm : Sends m jobs) (q : Outgoing ρ) :
    (m.run.run q).2.jobs = q.jobs ++ jobs.take q.accepts := by
  rw [hm]

end Sends

/-! ## Attempts -/

section Attempts

variable {ι κ : Type*} (due : ι → List κ) (reach : ι → ℕ)

/-- The attempt gets past the place where this is due. -/
def GetsPast (a : ι) (x : κ) : Prop := ∃ i < reach a, (due a)[i]? = some x

variable {due reach} {attempts : List ι}

theorem mem_take_iff (a : ι) (x : κ) : x ∈ (due a).take (reach a) ↔ GetsPast due reach a x := by
  refine ⟨?_, ?_⟩
  · intro hx
    obtain ⟨i, hi, rfl⟩ := List.getElem_of_mem hx
    rw [List.length_take] at hi
    have hdue : i < (due a).length := by omega
    refine ⟨i, by omega, ?_⟩
    rw [List.getElem_take, List.getElem?_eq_getElem hdue]
  · rintro ⟨i, hi, hx⟩
    obtain ⟨hdue, rfl⟩ := List.getElem?_eq_some_iff.mp hx
    exact List.mem_take_iff_getElem.mpr ⟨i, by omega, rfl⟩

/-- **Nothing is sent twice** exactly when no two attempts get past the same thing. -/
theorem nodup_sent_iff (hdue : ∀ a ∈ attempts, (due a).Nodup) :
    (attempts.flatMap fun a => (due a).take (reach a)).Nodup ↔
      attempts.Pairwise fun a b => ∀ x, ¬ (GetsPast due reach a x ∧ GetsPast due reach b x) := by
  rw [List.nodup_flatMap]
  have htake : ∀ a ∈ attempts, ((due a).take (reach a)).Nodup :=
    fun a ha => (hdue a ha).sublist (List.take_sublist _ _)
  rw [and_iff_right htake]
  refine List.Pairwise.iff fun a b => ?_
  refine ⟨?_, ?_⟩
  · rintro hdisjoint x ⟨ha, hb⟩
    exact hdisjoint ((mem_take_iff a x).mpr ha) ((mem_take_iff b x).mpr hb)
  · intro hnot x ha hb
    exact hnot x ⟨(mem_take_iff a x).mp ha, (mem_take_iff b x).mp hb⟩

/-- Attempts at the same work: at most one of them may send anything. -/
theorem pairwise_getsPast_iff {x : κ} {xs : List κ} (hsame : ∀ a ∈ attempts, due a = x :: xs) :
    (attempts.Pairwise fun a b => ∀ x, ¬ (GetsPast due reach a x ∧ GetsPast due reach b x)) ↔
      attempts.Pairwise fun a b => reach a = 0 ∨ reach b = 0 := by
  refine List.Pairwise.iff_of_mem fun {a b} ha hb => ?_
  refine ⟨?_, ?_⟩
  · intro hnot
    have hfirst : ∀ c ∈ attempts, reach c ≠ 0 → GetsPast due reach c x := by
      intro c hc hreach
      refine ⟨0, Nat.pos_of_ne_zero hreach, ?_⟩
      rw [hsame c hc]
      rfl
    by_contra hboth
    rw [not_or] at hboth
    exact hnot x ⟨hfirst a ha hboth.1, hfirst b hb hboth.2⟩
  · rintro (hzero | hzero) y ⟨⟨i, hi, -⟩, ⟨j, hj, -⟩⟩
    · exact Nat.not_lt_zero i (hzero ▸ hi)
    · exact Nat.not_lt_zero j (hzero ▸ hj)

end Attempts

end RatelPlatform
