import Mathlib.Data.List.Basic
import Mathlib.Data.List.Induction

/-!
# Labelled runs

A deterministic machine `next : σ → ι → Option σ`: label `i` is *enabled* in a
state when `next` answers it. Nondeterminism (which process moves, whether a
call fails) lives in the choice of labels, so a run is just the list of labels
it took.

`Reaches next ok s ls t` is a run from `s` to `t` along `ls` all of whose steps
meet the side condition `ok`; with `ok` always true these are simply the
reachable states. Every prefix of a run is again a run, so a property proved of
the last state of every run holds in every state the run passes.
-/

namespace RatelPlatform

universe u v

variable {σ : Type u} {ι : Type v}

/-- The runs of `next` whose every step is allowed by `ok` in the state it is
taken from. -/
inductive Reaches (next : σ → ι → Option σ) (ok : σ → ι → Prop) (s : σ) : List ι → σ → Prop
  /-- the empty run -/
  | nil : Reaches next ok s [] s
  /-- one more allowed, enabled step at the end -/
  | snoc {ls : List ι} {t u : σ} {i : ι} :
      Reaches next ok s ls t → ok t i → next t i = some u → Reaches next ok s (ls ++ [i]) u

namespace Reaches

variable {next : σ → ι → Option σ} {ok ok' : σ → ι → Prop} {s t : σ} {ls : List ι}

/-- **The invariant rule**: what holds initially and survives every allowed step
holds in every state reached. -/
theorem invariant {P : σ → Prop} (h₀ : P s)
    (hstep : ∀ t i u, P t → ok t i → next t i = some u → P u)
    (hr : Reaches next ok s ls t) : P t := by
  induction hr with
  | nil => exact h₀
  | snoc _ hok hn ih => exact hstep _ _ _ ih hok hn

/-- The invariant rule for a property of the state and of the run that led to it. -/
theorem invariant_along {P : List ι → σ → Prop} (h₀ : P [] s)
    (hstep : ∀ ls t i u, Reaches next ok s ls t → P ls t → ok t i → next t i = some u →
      P (ls ++ [i]) u)
    (hr : Reaches next ok s ls t) : P ls t := by
  induction hr with
  | nil => exact h₀
  | snoc hr hok hn ih => exact hstep _ _ _ _ hr ih hok hn

/-- Going on from where a run ended. -/
theorem append {u : σ} {ls' : List ι} (hr : Reaches next ok s ls t)
    (hr' : Reaches next ok t ls' u) : Reaches next ok s (ls ++ ls') u := by
  induction hr' with
  | nil =>
    rw [List.append_nil]
    exact hr
  | snoc _ hok hn ih =>
    rw [← List.append_assoc]
    exact .snoc ih hok hn

/-- A run that is not empty, taken apart at its last step. -/
theorem of_snoc {u : σ} {i : ι} (hr : Reaches next ok s (ls ++ [i]) u) :
    ∃ t, Reaches next ok s ls t ∧ ok t i ∧ next t i = some u := by
  generalize hls : ls ++ [i] = ls' at hr
  cases hr with
  | nil => exact absurd hls (List.concat_ne_nil _ _)
  | snoc hr hok hn =>
    obtain ⟨rfl, hi⟩ := List.append_inj' hls rfl
    obtain rfl := List.singleton_inj.mp hi
    exact ⟨_, hr, hok, hn⟩

/-- Weakening the side condition keeps a run. -/
theorem mono (himp : ∀ t i, ok t i → ok' t i) (hr : Reaches next ok s ls t) :
    Reaches next ok' s ls t := by
  induction hr with
  | nil => exact .nil
  | snoc _ hok hn ih => exact .snoc ih (himp _ _ hok) hn

end Reaches

/-- Executing a schedule: every label must be enabled in turn. -/
def runLabels (next : σ → ι → Option σ) : σ → List ι → Option σ
  | s, [] => some s
  | s, i :: is => (next s i).bind fun t => runLabels next t is

theorem runLabels_append (next : σ → ι → Option σ) (s : σ) (is js : List ι) :
    runLabels next s (is ++ js) = (runLabels next s is).bind fun t => runLabels next t js := by
  induction is generalizing s with
  | nil => rfl
  | cons i is ih =>
    simp only [List.cons_append, runLabels]
    rcases next s i with _ | t
    · rfl
    · exact ih t

/-- An executed schedule is a run (without side condition). -/
theorem reaches_of_runLabels {next : σ → ι → Option σ} {s t : σ} {is : List ι}
    (h : runLabels next s is = some t) : Reaches next (fun _ _ => True) s is t := by
  induction is using List.reverseRecOn generalizing t with
  | nil =>
    obtain rfl := Option.some.inj h
    exact .nil
  | append_singleton is i ih =>
    rw [runLabels_append] at h
    obtain ⟨u, hu, hi⟩ := Option.bind_eq_some_iff.mp h
    obtain ⟨v, hv, hvt⟩ := Option.bind_eq_some_iff.mp hi
    obtain rfl := Option.some.inj hvt
    exact .snoc (ih hu) trivial hv

/-- An executed schedule all of whose steps pass a check is a run with the side
condition the check stands for under an invariant of the checked runs. -/
theorem reaches_of_checked_inv {next : σ → ι → Option σ} {ok : σ → ι → Prop}
    {check : σ → ι → Bool} {I : σ → Prop} {s t : σ} {is : List ι} (h₀ : I s)
    (hstep : ∀ s i t, I s → check s i → next s i = some t → I t)
    (hcheck : ∀ s i, I s → check s i → ok s i)
    (h : runLabels (fun s i => if check s i then next s i else none) s is = some t) :
    Reaches next ok s is t := by
  have hr := reaches_of_runLabels h
  clear h
  suffices hboth : Reaches next ok s is t ∧ I t from hboth.1
  induction hr with
  | nil => exact ⟨.nil, h₀⟩
  | snoc _ _ hn ih =>
    obtain ⟨hr, hinv⟩ := ih
    split_ifs at hn with hc
    exact ⟨.snoc hr (hcheck _ _ hinv hc) hn, hstep _ _ _ hinv hc hn⟩

/-- A schedule that passes a check which needs no invariant can be run. -/
theorem exists_reaches_of_checked {next : σ → ι → Option σ} {ok : σ → ι → Prop}
    {check : σ → ι → Bool} (hcheck : ∀ s i, check s i → ok s i) {s : σ} {is : List ι}
    (h : (runLabels (fun s i => if check s i then next s i else none) s is).isSome) :
    ∃ t, Reaches next ok s is t := by
  obtain ⟨t, ht⟩ := Option.isSome_iff_exists.mp h
  exact ⟨t, reaches_of_checked_inv (I := fun _ => True) trivial (fun _ _ _ _ _ _ => trivial)
    (fun s i _ => hcheck s i) ht⟩

/-- A run executes its own labels. -/
theorem Reaches.runLabels_eq {next : σ → ι → Option σ} {ok : σ → ι → Prop} {s t : σ} {is : List ι}
    (hr : Reaches next ok s is t) : runLabels next s is = some t := by
  induction hr with
  | nil => rfl
  | snoc _ _ hn ih =>
    rw [runLabels_append, ih]
    simp only [Option.bind_some, runLabels, hn]

/-- **The exact rule**: what a step keeps exactly when it is allowed holds of the states that
runs of allowed steps reach, and of no others. -/
theorem Reaches.iff_allowed {next : σ → ι → Option σ} {ok : σ → ι → Prop} {P : σ → Prop} {s t : σ}
    {ls : List ι} (h₀ : P s)
    (hstep : ∀ ls t i u, Reaches next (fun _ _ => True) s ls t → next t i = some u →
      (P u ↔ P t ∧ ok t i))
    (hr : Reaches next (fun _ _ => True) s ls t) : P t ↔ Reaches next ok s ls t := by
  induction hr with
  | nil => exact iff_of_true h₀ .nil
  | @snoc ls t u i hr _ hn ih =>
    rw [hstep ls t i u hr hn, ih]
    refine ⟨?_, ?_⟩
    · rintro ⟨hr', hok⟩
      exact .snoc hr' hok hn
    · intro hr'
      obtain ⟨t', hr', hok, -⟩ := hr'.of_snoc
      obtain rfl := Option.some.inj (hr'.runLabels_eq.symm.trans hr.runLabels_eq)
      exact ⟨hr', hok⟩

/-- The beginning of a run. -/
theorem Reaches.of_append {next : σ → ι → Option σ} {ok : σ → ι → Prop} {s u : σ}
    {ls ls' : List ι} (hr : Reaches next ok s (ls ++ ls') u) : ∃ t, Reaches next ok s ls t := by
  induction ls' using List.reverseRecOn generalizing u with
  | nil => exact ⟨u, List.append_nil ls ▸ hr⟩
  | append_singleton ls' i ih =>
    rw [← List.append_assoc] at hr
    obtain ⟨t, hr, -⟩ := hr.of_snoc
    exact ih hr

/-- Every step of a run is allowed where it is taken. -/
theorem Reaches.ok_of_append_cons {next : σ → ι → Option σ} {ok : σ → ι → Prop} {s t u : σ}
    {before after : List ι} {l : ι} (hr : Reaches next ok s (before ++ l :: after) u)
    (ht : Reaches next (fun _ _ => True) s before t) : ok t l := by
  rw [List.append_cons] at hr
  obtain ⟨_, hr⟩ := hr.of_append
  obtain ⟨t', hr, hok, -⟩ := hr.of_snoc
  -- the run decides the state
  obtain rfl := Option.some.inj (ht.runLabels_eq.symm.trans hr.runLabels_eq)
  exact hok

/-- What holds in every state that the run passes through. -/
def Throughout (next : σ → ι → Option σ) (s : σ) (ls : List ι) (P : σ → Prop) : Prop :=
  ∀ before t, before <+: ls → Reaches next (fun _ _ => True) s before t → P t

/-- What holds wherever allowed steps lead holds throughout a run of them. -/
theorem Reaches.throughout {next : σ → ι → Option σ} {ok : σ → ι → Prop} {P : σ → Prop} {s t : σ}
    {ls : List ι} (hok : Reaches next ok s ls t) (hP : ∀ ls u, Reaches next ok s ls u → P u) :
    Throughout next s ls P := by
  rintro before u ⟨after, rfl⟩ hu
  obtain ⟨u', hu'⟩ := hok.of_append
  -- the run decides the state
  obtain rfl := Option.some.inj (hu.runLabels_eq.symm.trans hu'.runLabels_eq)
  exact hP before u hu'

/-- **The exact rule for whole runs**: what a step keeps exactly when it is allowed holds
throughout the runs of allowed steps, and throughout no others. -/
theorem Reaches.throughout_iff {next : σ → ι → Option σ} {ok : σ → ι → Prop} {P : σ → Prop}
    {s t : σ} {ls : List ι} (h₀ : P s)
    (hstep : ∀ t i u, P t → next t i = some u → (P u ↔ ok t i))
    (hr : Reaches next (fun _ _ => True) s ls t) :
    Throughout next s ls P ↔ Reaches next ok s ls t := by
  refine ⟨?_, ?_⟩
  · intro hP
    induction hr with
    | nil => exact .nil
    | snoc hr _ hn ih =>
      have hbefore := hP _ _ (List.prefix_append _ _) hr
      have hafter := hP _ _ (List.prefix_refl _) (hr.snoc trivial hn)
      refine .snoc (ih fun before t hprefix => hP before t ?_) ?_ hn
      · exact hprefix.trans (List.prefix_append _ _)
      · exact (hstep _ _ _ hbefore hn).mp hafter
  · exact fun hok => hok.throughout fun _ _ hr =>
      hr.invariant h₀ fun _ _ _ h hok hn => (hstep _ _ _ h hn).mpr hok

/-! ## What happened in a run -/

/-- Somewhere along the run there is a step with the property. -/
def Happened (next : σ → ι → Option σ) (s : σ) (ls : List ι) (P : σ → ι → σ → Prop) : Prop :=
  ∃ before l after t u, ls = before ++ l :: after ∧
    Reaches next (fun _ _ => True) s before t ∧ next t l = some u ∧ P t l u

theorem not_happened_nil {next : σ → ι → Option σ} {s : σ} {P : σ → ι → σ → Prop} :
    ¬ Happened next s [] P := by
  rintro ⟨before, l, after, t, u, hls, -⟩
  exact List.append_ne_nil_of_right_ne_nil _ (List.cons_ne_nil _ _) hls.symm

/-- A run that goes on keeps its past, and adds its last step. -/
theorem happened_snoc_iff {next : σ → ι → Option σ} {ok : σ → ι → Prop} {s t u : σ} {ls : List ι}
    {l : ι} {P : σ → ι → σ → Prop} (hr : Reaches next ok s ls t) (hn : next t l = some u) :
    Happened next s (ls ++ [l]) P ↔ Happened next s ls P ∨ P t l u := by
  refine ⟨?_, ?_⟩
  · rintro ⟨before, l', after, t', u', hls, hr', hn', hP⟩
    rcases List.eq_nil_or_concat' after with rfl | ⟨after, l'', rfl⟩
    · obtain ⟨rfl, hl⟩ := List.append_inj' hls rfl
      obtain rfl := List.singleton_inj.mp hl
      obtain rfl := Option.some.inj (hr'.runLabels_eq.symm.trans hr.runLabels_eq)
      obtain rfl := Option.some.inj (hn'.symm.trans hn)
      exact .inr hP
    · rw [← List.cons_append, ← List.append_assoc] at hls
      obtain ⟨rfl, -⟩ := List.append_inj' hls rfl
      exact .inl ⟨before, l', after, t', u', rfl, hr', hn', hP⟩
  · rintro (⟨before, l', after, t', u', rfl, hr', hn', hP⟩ | hP)
    · exact ⟨before, l', after ++ [l], t', u', by simp, hr', hn', hP⟩
    · exact ⟨ls, l, [], t, u, rfl, hr.mono fun _ _ _ => trivial, hn, hP⟩

/-- What no allowed step does does not happen in a run of them. -/
theorem Reaches.not_happened {next : σ → ι → Option σ} {ok : σ → ι → Prop} {s t : σ} {ls : List ι}
    {P : σ → ι → σ → Prop} (hr : Reaches next ok s ls t) (hP : ∀ t l u, ok t l → ¬ P t l u) :
    ¬ Happened next s ls P := by
  rintro ⟨before, l, after, t, u, rfl, ht, -, hbad⟩
  exact hP _ _ _ (hr.ok_of_append_cons ht) hbad

end RatelPlatform
