import RatelPlatform.AppendedEvents

/-!
# Projecting expenses

`ExpenseReadModelProjector` handles an event in a few database calls of its own: it reads
the expense, looks up some names, and upserts the row of the read model. Pollers and
redeliveries run it for any event of the outbox, any number of times and side by side,
while commands commit. The upsert does not ask whether the row it overwrites is newer
than the expense it carries.

The *version* of an expense is the number of its events. Once every event of an expense
has been handled and nobody is at work, the read model shows the expense as it is, as
long as no upsert carries an older version than the one it overwrites, and every commit
that changes what is shown comes with an event (`projected_in_sync`).
-/

namespace RatelPlatform

/-- The number of events of the expense. -/
def Store.version (d : Store) (id : Id) : ℕ := d.outbox.countP fun e => ProjectedOf id e

/-- The number of events of the expense up to an event of the outbox. -/
def Store.versionAt (d : Store) (id : Id) (n : ℕ) : ℕ :=
  (d.outbox.take (n + 1)).countP fun e => ProjectedOf id e

/-- Where a run of `projectFromSource` stands; `n` is the place of its event in the outbox,
`seen` the version of the expense when it was read. -/
inductive Projection
  | idle
  /-- about to read the expense -/
  | reading (n : ℕ) (event : DomainEvent)
  /-- about to look up the names -/
  | looking (n : ℕ) (expenseId : Id) (expense : ExpenseRow) (seen : ℕ)
  /-- about to upsert the row of the read model -/
  | writing (n : ℕ) (expenseId : Id) (expense : ExpenseRow) (seen : ℕ)
      (names : ExpenseReadModelProjector.Names)

/-- Not at work. -/
def Projection.isIdle : Projection → Bool
  | .idle => true
  | _ => false

theorem Projection.eq_idle {p : Projection} (h : p.isIdle = true) : p = .idle := by
  cases p with
  | idle => rfl
  | reading | looking | writing => cases h

/-- What a projection has read. -/
def Projection.read : Projection → Option (ℕ × Id × ExpenseRow × ℕ)
  | .looking n id expense seen => some (n, id, expense, seen)
  | .writing n id expense seen _ => some (n, id, expense, seen)
  | _ => none

/-- The expense a projection is about to write, and its version. -/
def Projection.carried : Projection → Option (Id × ℕ)
  | .writing _ id _ seen _ => some (id, seen)
  | _ => none

/-- The commands under way, and the projections of their events. -/
structure ProjectionSystem where
  commands : System Store RowLock Failure Unit
  readModel : Table Id ExpenseReadModel
  projections : ℕ → Projection
  /-- the events that have been handled successfully; nothing reads it -/
  handled : List ℕ
  /-- the version that was last written; nothing reads it -/
  written : Id → ℕ

namespace ProjectionSystem

/-- A store without rows, on which the requests are about to run. -/
def initial (administration : Administration) (requests : ℕ → Request) : ProjectionSystem where
  commands := .init (.initial administration) fun i => (requests i).command.program (requests i).env
  readModel := ∅
  projections := fun _ => .idle
  handled := []
  written := fun _ => 0

/-- What can happen. -/
inductive Label
  /-- a statement of a command, or its commit -/
  | turn (turn : Turn)
  /-- a poller or a redelivery calls the projector with an event of the outbox -/
  | start (i n : ℕ)
  | read (i : ℕ)
  | lookUp (i : ℕ) (names : ExpenseReadModelProjector.Names)
  | upsert (i : ℕ)
  /-- a database call fails, or the process dies -/
  | fail (i : ℕ)

/-- One step: a step of a command, or one database call of a projection. -/
def next (σ : ProjectionSystem) : Label → Option ProjectionSystem
  | .turn turn => (σ.commands.next turn).map fun commands => { σ with commands }
  | .start i n =>
    match σ.projections i, σ.commands.db.outbox[n]? with
    | .idle, some event =>
      if event.type ∈ ExpenseReadModelProjector.projectedEventTypes then
        some { σ with projections := Function.update σ.projections i (.reading n event) }
      else none
    | _, _ => none
  | .read i =>
    match σ.projections i with
    | .reading n event =>
      match σ.commands.db.expenses.lookup event.aggregateId with
      -- logged, and counted as handled
      | none => some { σ with
          projections := Function.update σ.projections i .idle
          handled := σ.handled ++ [n] }
      | some expense => some { σ with
          projections := Function.update σ.projections i
            (.looking n event.aggregateId expense (σ.commands.db.version event.aggregateId)) }
    | _ => none
  | .lookUp i names =>
    match σ.projections i with
    | .looking n id expense seen =>
      if (expense.vendorId = none → names.vendor = none) ∧
          (expense.projectId = none → names.project = none) then
        some { σ with
          projections := Function.update σ.projections i (.writing n id expense seen names) }
      else none
    | _ => none
  | .upsert i =>
    match σ.projections i with
    | .writing n id expense seen names => some { σ with
        readModel := ExpenseReadModelProjector.upsert σ.readModel id expense names
        projections := Function.update σ.projections i .idle
        handled := σ.handled ++ [n]
        written := Function.update σ.written id seen }
    | _ => none
  | .fail i =>
    match σ.projections i with
    | .idle => none
    | _ => some { σ with projections := Function.update σ.projections i .idle }

/-- Every event of the expense has been handled, and no projection is in progress. -/
def Settled (σ : ProjectionSystem) (id : Id) : Prop :=
  (∀ (n : ℕ) (event : DomainEvent), σ.commands.db.outbox[n]? = some event → ProjectedOf id event →
    n ∈ σ.handled) ∧ ∀ i, σ.projections i = .idle

/-- The read model shows the expense as it is. -/
def Shows (σ : ProjectionSystem) (id : Id) : Prop :=
  ∀ expense, σ.commands.db.expenses.lookup id = some expense →
    ∃ model, σ.readModel.lookup id = some model ∧ model.InSync expense

/-- **First condition**: a commit that changes what is shown of an expense comes with an
event of it. -/
def CommitsTell (σ : ProjectionSystem) : Label → Prop
  | .turn turn => ∀ commands ∈ σ.commands.next turn, Tells σ.commands.db commands.db
  | _ => True

/-- **Second condition**: an upsert does not carry an older version of the expense than the
one it overwrites. -/
def UpsertsNewer (σ : ProjectionSystem) : Label → Prop
  | .upsert i => ∀ c ∈ (σ.projections i).carried, σ.written c.1 ≤ c.2
  | _ => True

/-- Both. -/
def InOrder (σ : ProjectionSystem) (l : Label) : Prop := σ.CommitsTell l ∧ σ.UpsertsNewer l

instance (σ : ProjectionSystem) (l : Label) : Decidable (σ.CommitsTell l) :=
  match l with
  | .turn turn => inferInstanceAs
      (Decidable (∀ commands ∈ σ.commands.next turn, Tells σ.commands.db commands.db))
  | .start _ _ => isTrue trivial
  | .read _ => isTrue trivial
  | .lookUp _ _ => isTrue trivial
  | .upsert _ => isTrue trivial
  | .fail _ => isTrue trivial

instance (σ : ProjectionSystem) (l : Label) : Decidable (σ.UpsertsNewer l) :=
  match l with
  | .upsert i => inferInstanceAs
      (Decidable (∀ c ∈ (σ.projections i).carried, σ.written c.1 ≤ c.2))
  | .turn _ => isTrue trivial
  | .start _ _ => isTrue trivial
  | .read _ => isTrue trivial
  | .lookUp _ _ => isTrue trivial
  | .fail _ => isTrue trivial

instance (σ : ProjectionSystem) (l : Label) : Decidable (σ.InOrder l) :=
  inferInstanceAs (Decidable (_ ∧ _))

end ProjectionSystem

/-! ## Projections alone -/

/-- The projection that takes a step. -/
def ProjectionSystem.Label.projector : ProjectionSystem.Label → Option ℕ
  | .turn _ => none
  | .start i _ | .read i | .lookUp i _ | .upsert i | .fail i => some i

/-- A step of a projection leaves the commands and the other projections alone. -/
theorem ProjectionSystem.next_frame {σ σ' : ProjectionSystem} {l : Label}
    (hn : σ.next l = some σ') (hl : l.projector ≠ none) :
    σ'.commands = σ.commands ∧
      ∀ j, l.projector ≠ some j → σ'.projections j = σ.projections j := by
  have hothers : ∀ {i : ℕ} {p : Projection} (j : ℕ), some i ≠ some j →
      Function.update σ.projections i p j = σ.projections j := by
    intro i p j hne
    exact Function.update_of_ne (fun heq => hne (congrArg some heq.symm)) _ _
  cases l with
  | turn turn => exact absurd rfl hl
  | start i n =>
    simp only [next] at hn
    split at hn
    · split_ifs at hn
      cases hn
      exact ⟨rfl, hothers⟩
    · cases hn
  | read i =>
    simp only [next] at hn
    split at hn
    · split at hn
      · cases hn
        exact ⟨rfl, hothers⟩
      · cases hn
        exact ⟨rfl, hothers⟩
    · cases hn
  | lookUp i names =>
    simp only [next] at hn
    split at hn
    · split_ifs at hn
      cases hn
      exact ⟨rfl, hothers⟩
    · cases hn
  | upsert i =>
    simp only [next] at hn
    split at hn
    · cases hn
      exact ⟨rfl, hothers⟩
    · cases hn
  | fail i =>
    simp only [next] at hn
    split at hn
    · cases hn
    · cases hn
      exact ⟨rfl, hothers⟩

/-! ## Versions -/

section Versions

variable {d d' : Store} {id : Id} {events : List DomainEvent} {n v : ℕ}
  {shown : Option (String × ℤ × JsDate)}

theorem Store.version_append (h : d'.outbox = d.outbox ++ events) :
    d'.version id = d.version id + events.countP fun e => ProjectedOf id e := by
  simp [version, h]

theorem Store.versionAt_append (h : d'.outbox = d.outbox ++ events) {event : DomainEvent}
    (hn : d.outbox[n]? = some event) : d'.versionAt id n = d.versionAt id n := by
  obtain ⟨hlt, -⟩ := List.getElem?_eq_some_iff.mp hn
  rw [versionAt, h, List.take_append_of_le_length hlt, versionAt]

theorem Store.versionAt_le : d.versionAt id n ≤ d.version id :=
  List.Sublist.countP_le (List.take_sublist _ _)

/-- An expense that has events has a last one. -/
theorem Store.exists_last (h : 0 < d.version id) :
    ∃ n event, d.outbox[n]? = some event ∧ ProjectedOf id event ∧
      d.versionAt id n = d.version id := by
  simp only [version, versionAt] at h ⊢
  generalize d.outbox = outbox at h ⊢
  induction outbox using List.reverseRecOn with
  | nil => simp at h
  | append_singleton outbox event ih =>
    by_cases hof : ProjectedOf id event
    · refine ⟨outbox.length, event, by simp, hof, ?_⟩
      rw [List.take_of_length_le (by simp)]
    · have hcount : (outbox ++ [event]).countP (fun e => ProjectedOf id e) =
          outbox.countP fun e => ProjectedOf id e := by simp [hof]
      rw [hcount] at h ⊢
      obtain ⟨n, event', hn, hof', hlast⟩ := ih h
      obtain ⟨hlt, -⟩ := List.getElem?_eq_some_iff.mp hn
      refine ⟨n, event', ?_, hof', ?_⟩
      · rw [List.getElem?_append_left hlt, hn]
      · rw [List.take_append_of_le_length hlt, hlast]

/-- What there was to show of the expense at a version. -/
structure AsOf (d : Store) (id : Id) (v : ℕ) (shown : Option (String × ℤ × JsDate)) : Prop where
  le : v ≤ d.version id
  shown : d.version id = v → d.shown id = shown

theorem AsOf.now : AsOf d id (d.version id) (d.shown id) := ⟨le_rfl, fun _ => rfl⟩

/-- **A commit that tells** leaves what there was to show at the versions before. -/
theorem AsOf.commit (h : AsOf d id v shown) (hout : d'.outbox = d.outbox ++ events)
    (htells : Tells d d') : AsOf d' id v shown := by
  have hversion : d'.version id = _ := Store.version_append hout
  refine ⟨?_, fun hv => ?_⟩
  · have hle := h.le
    omega
  · have hle := h.le
    have hnone : events.countP (fun e => ProjectedOf id e) = 0 := by omega
    have hsame : d'.shown id = d.shown id := by
      by_contra hne
      obtain ⟨e, he, hof⟩ := htells id hne
      rw [Store.newEvents_of_append hout] at he
      rw [List.countP_eq_zero] at hnone
      exact hnone e he (decide_eq_true hof)
    rw [hsame]
    apply h.shown
    omega

end Versions

namespace ProjectionSystem

variable {administration : Administration} {requests : ℕ → Request} {labels : List Label}
  {σ σ' : ProjectionSystem} {l : Label}

/-! ## What a run keeps -/

/-- The event at a place of the outbox has been handled: the read model has been given the
version of its expense up to it or a later one, or there was no expense. -/
def Handled (σ : ProjectionSystem) (n : ℕ) : Prop :=
  ∃ event, σ.commands.db.outbox[n]? = some event ∧ ∃ v,
    σ.commands.db.versionAt event.aggregateId n ≤ v ∧
      ((v ≤ σ.written event.aggregateId ∧
          ∃ model, σ.readModel.lookup event.aggregateId = some model) ∨
        AsOf σ.commands.db event.aggregateId v none)

/-- What every run that meets the conditions keeps. -/
structure Kept (σ : ProjectionSystem) : Prop where
  commands : System.AllWrite Appends σ.commands
  absent : ∀ id, AsOf σ.commands.db id 0 none
  reading : ∀ i n event, σ.projections i = .reading n event →
    σ.commands.db.outbox[n]? = some event
  read : ∀ i n id expense seen, (σ.projections i).read = some (n, id, expense, seen) →
    (∃ event, σ.commands.db.outbox[n]? = some event ∧ event.aggregateId = id) ∧
      σ.commands.db.versionAt id n ≤ seen ∧ AsOf σ.commands.db id seen (some expense.shown)
  model : ∀ id model, σ.readModel.lookup id = some model → AsOf σ.commands.db id (σ.written id)
    (some (model.status, model.amountMinorUnits, model.updatedAt))
  handled : ∀ n ∈ σ.handled, σ.Handled n

theorem Kept.initial : Kept (initial administration requests) where
  commands := .init .refl fun i => (requests i).command.appends _
  absent := fun id => ⟨Nat.zero_le _, fun _ => rfl⟩
  reading := fun i n event h => by simp [ProjectionSystem.initial] at h
  read := fun i n id expense seen h => by simp [ProjectionSystem.initial, Projection.read] at h
  model := fun id model h => by simp [ProjectionSystem.initial] at h
  handled := fun n h => by simp [ProjectionSystem.initial] at h

/-- A step of a command. -/
theorem Kept.turn (h : σ.Kept) {turn : Turn} {commands : System Store RowLock Failure Unit}
    (hn : σ.commands.next turn = some commands) (htells : Tells σ.commands.db commands.db) :
    Kept { σ with commands } := by
  obtain ⟨hcommands, hdb⟩ := h.commands.next Appends.comp hn
  obtain ⟨events, hout⟩ : ∃ events, commands.db.outbox = σ.commands.db.outbox ++ events := by
    rcases hdb with hdb | ⟨patch, happends, hdb⟩
    · exact ⟨[], by simp [hdb]⟩
    · rw [hdb]
      exact happends _
  have hplace : ∀ {n : ℕ} {event : DomainEvent}, σ.commands.db.outbox[n]? = some event →
      commands.db.outbox[n]? = some event := by
    intro n event hn
    obtain ⟨hlt, -⟩ := List.getElem?_eq_some_iff.mp hn
    rw [hout, List.getElem?_append_left hlt, hn]
  refine ⟨hcommands, fun id => (h.absent id).commit hout htells, ?_, ?_, ?_, ?_⟩
  · exact fun i n event hi => hplace (h.reading i n event hi)
  · intro i n id expense seen hi
    obtain ⟨⟨event, hn, hid⟩, hseen, hasOf⟩ := h.read i n id expense seen hi
    refine ⟨⟨event, hplace hn, hid⟩, ?_, hasOf.commit hout htells⟩
    rw [Store.versionAt_append hout hn]
    exact hseen
  · exact fun id model hmodel => (h.model id model hmodel).commit hout htells
  · intro n hmem
    obtain ⟨event, hn, v, hv, hdone⟩ := h.handled n hmem
    refine ⟨event, hplace hn, v, ?_, hdone.imp_right fun hasOf => hasOf.commit hout htells⟩
    rw [Store.versionAt_append hout hn]
    exact hv

/-- A projection that goes on. -/
theorem Kept.update (h : σ.Kept) {i : ℕ} {p : Projection}
    (hreading : ∀ n event, p = .reading n event → σ.commands.db.outbox[n]? = some event)
    (hread : ∀ n id expense seen, p.read = some (n, id, expense, seen) →
      (∃ event, σ.commands.db.outbox[n]? = some event ∧ event.aggregateId = id) ∧
        σ.commands.db.versionAt id n ≤ seen ∧ AsOf σ.commands.db id seen (some expense.shown)) :
    Kept { σ with projections := Function.update σ.projections i p } := by
  refine ⟨h.commands, h.absent, fun j n event hj => ?_, fun j n id expense seen hj => ?_, h.model,
    h.handled⟩
  · by_cases hne : j = i
    · subst hne
      exact hreading n event (by simpa using hj)
    · simp only [Function.update_of_ne hne] at hj
      exact h.reading j n event hj
  · by_cases hne : j = i
    · subst hne
      exact hread n id expense seen (by simpa using hj)
    · simp only [Function.update_of_ne hne] at hj
      exact h.read j n id expense seen hj

/-- A projection that ends. -/
theorem Kept.idle (h : σ.Kept) (i : ℕ) :
    Kept { σ with projections := Function.update σ.projections i .idle } :=
  h.update (by simp) (by simp [Projection.read])

/-- One more event is handled. -/
theorem Kept.handle (h : σ.Kept) {n : ℕ} (hn : σ.Handled n) :
    Kept { σ with handled := σ.handled ++ [n] } := by
  refine ⟨h.commands, h.absent, h.reading, h.read, h.model, fun m hm => ?_⟩
  rcases List.mem_append.mp hm with hm | hm
  · exact h.handled m hm
  · rw [List.mem_singleton.mp hm]
    exact hn

/-- **An upsert** of a version that is no older than the one it overwrites. -/
theorem Kept.upsert (h : σ.Kept) {id : Id} {expense : ExpenseRow} {seen : ℕ}
    (names : ExpenseReadModelProjector.Names)
    (hasOf : AsOf σ.commands.db id seen (some expense.shown)) (hnewer : σ.written id ≤ seen) :
    Kept { σ with
      readModel := ExpenseReadModelProjector.upsert σ.readModel id expense names
      written := Function.update σ.written id seen } := by
  have hupsert := fun id' =>
    ExpenseReadModelProjector.lookup_upsert σ.readModel id id' expense names
  obtain ⟨-, model, hmodel, hsync⟩ := hupsert id
  refine ⟨h.commands, h.absent, h.reading, h.read, fun id' model' hmodel' => ?_, fun n hn => ?_⟩
  · by_cases hid : id' = id
    · subst hid
      obtain rfl := Option.some.inj (hmodel.symm.trans hmodel')
      simp only [Function.update_self, ← ExpenseReadModel.inSync_iff.mp hsync]
      exact hasOf
    · rw [(hupsert id').1 hid] at hmodel'
      simp only [Function.update_of_ne hid]
      exact h.model id' model' hmodel'
  · obtain ⟨event, hevent, v, hv, hdone⟩ := h.handled n hn
    refine ⟨event, hevent, v, hv, hdone.imp_left fun ⟨hle, hmem⟩ => ?_⟩
    by_cases hid : event.aggregateId = id
    · rw [hid] at hle ⊢
      simp only [Function.update_self]
      exact ⟨hle.trans hnewer, model, hmodel⟩
    · simp only [Function.update_of_ne hid, (hupsert _).1 hid]
      exact ⟨hle, hmem⟩

/-- **Every step** in order. -/
theorem Kept.next (h : σ.Kept) (hok : σ.InOrder l) (hn : σ.next l = some σ') : σ'.Kept := by
  cases l with
  | turn turn =>
    obtain ⟨commands, hcommands, rfl⟩ := Option.map_eq_some_iff.mp hn
    exact h.turn hcommands (hok.1 commands hcommands)
  | start i n =>
    simp only [ProjectionSystem.next] at hn
    split at hn
    · next event _ hevent =>
      split_ifs at hn
      cases hn
      refine h.update ?_ (by simp [Projection.read])
      rintro _ _ ⟨⟩
      exact hevent
    · cases hn
  | read i =>
    simp only [ProjectionSystem.next] at hn
    split at hn
    · next n event hi =>
      have hevent := h.reading i n event hi
      have hseen : σ.commands.db.versionAt event.aggregateId n ≤
          σ.commands.db.version event.aggregateId := Store.versionAt_le
      split at hn
      · next hnone =>
        cases hn
        apply (h.idle i).handle
        refine ⟨event, hevent, _, hseen, .inr ⟨le_rfl, fun _ => ?_⟩⟩
        simp [Store.shown, hnone]
      · next expense hrow =>
        cases hn
        apply h.update (by simp)
        rintro _ _ _ _ ⟨⟩
        refine ⟨⟨event, hevent, rfl⟩, hseen, le_rfl, fun _ => ?_⟩
        simp [Store.shown, hrow]
    · cases hn
  | lookUp i names =>
    simp only [ProjectionSystem.next] at hn
    split at hn
    · next n id expense seen hi =>
      split_ifs at hn
      cases hn
      apply h.update (by simp)
      rintro _ _ _ _ ⟨⟩
      exact h.read i n id expense seen (by simp [hi, Projection.read])
    · cases hn
  | upsert i =>
    simp only [ProjectionSystem.next] at hn
    split at hn
    · next n id expense seen names hi =>
      cases hn
      obtain ⟨⟨event, hevent, rfl⟩, hseen, hasOf⟩ :=
        h.read i n id expense seen (by simp [hi, Projection.read])
      have hnewer : σ.written event.aggregateId ≤ seen :=
        hok.2 (event.aggregateId, seen) (by simp [hi, Projection.carried])
      apply ((h.upsert names hasOf hnewer).idle i).handle
      obtain ⟨-, model, hmodel, -⟩ := ExpenseReadModelProjector.lookup_upsert σ.readModel
        event.aggregateId event.aggregateId expense names
      exact ⟨event, hevent, seen, hseen, .inl ⟨by simp, model, hmodel⟩⟩
    · cases hn
  | fail i =>
    simp only [ProjectionSystem.next] at hn
    split at hn
    · cases hn
    · cases hn
      exact h.idle i

/-- Where every event has been handled, the read model shows the expense. -/
theorem Kept.shows (h : σ.Kept) {id : Id} (hsettled : σ.Settled id) : σ.Shows id := by
  intro expense hrow
  have hshown : σ.commands.db.shown id = some expense.shown := by simp [Store.shown, hrow]
  have hpos : 0 < σ.commands.db.version id := by
    by_contra hzero
    have hnone := (h.absent id).shown (by omega)
    cases hshown.symm.trans hnone
  obtain ⟨n, event, hn, hof, hlast⟩ := Store.exists_last hpos
  obtain ⟨event', hn', v, hv, hdone⟩ := h.handled n (hsettled.1 n event hn hof)
  obtain rfl := Option.some.inj (hn'.symm.trans hn)
  obtain ⟨-, rfl⟩ := hof
  rcases hdone with ⟨hle, model, hmodel⟩ | hasOf
  · have hasOf := h.model _ model hmodel
    refine ⟨model, hmodel, ExpenseReadModel.inSync_iff.mpr ?_⟩
    have hversion := hasOf.shown (le_antisymm (by omega) hasOf.le)
    exact Option.some.inj (hshown.symm.trans hversion)
  · -- the last event was handled when there was no expense, and there is none since
    have hnone := hasOf.shown (le_antisymm (by omega) hasOf.le)
    cases hshown.symm.trans hnone

/-- **The read model converges**: in every interleaving of commands and projections whose
commits tell and whose upserts carry no older version than they overwrite, an expense whose
events have all been handled, with no projection in progress, is shown as it is. -/
theorem projected_in_sync (hr : Reaches next InOrder (initial administration requests) labels σ)
    (id : Id) (hsettled : σ.Settled id) : σ.Shows id :=
  (hr.invariant (P := Kept) .initial fun _ _ _ h hok hn => h.next hok hn).shows hsettled

/-! ## Commands one at a time -/

/-- Every command commits on reads that are still current, under an id that is not in use. -/
def CommandsCurrent (requests : ℕ → Request) (σ : ProjectionSystem) : Label → Prop
  | .turn turn => σ.commands.CommitsCurrent turn ∧
      ∀ i, turn = .step i → σ.commands.db.Fresh (requests i).env.uuid
  | _ => True

/-- The session that is added to the log has taken the turn. -/
theorem step_of_log {commands commands' : System Store RowLock Failure Unit} {turn : Turn} {i : ℕ}
    (hn : commands.next turn = some commands') (hlog : commands'.log = commands.log ++ [i]) :
    turn = .step i := by
  obtain ⟨j, rest, patch, current, -, -, hcases⟩ := System.next_advance hn
  rcases hcases with ⟨-, hlog', -⟩ | ⟨a, hturn, -, -, hlog', -⟩ | ⟨-, _, _, _, -, -, hlog', -⟩
  · simp [hlog'] at hlog
  · rw [hlog'] at hlog
    simp only [List.append_cancel_left_eq, List.cons.injEq, and_true] at hlog
    rw [hturn, hlog]
  · simp [hlog'] at hlog

/-- **When commits tell**: whenever the commands might as well have run one at a time. -/
theorem reaches_of_current (hr : Reaches next
      (fun σ l => CommandsCurrent requests σ l ∧ σ.UpsertsNewer l) (initial administration requests)
      labels σ) :
    Reaches next InOrder (initial administration requests) labels σ := by
  suffices hboth : Reaches next InOrder (initial administration requests) labels σ ∧
      System.Faithful (fun i => (requests i).command.program (requests i).env) σ.commands ∧
      σ.commands.db.WellFormed from hboth.1
  induction hr with
  | nil =>
    refine ⟨.nil, ?_, Store.wellFormed_initial administration⟩
    intro i rest patch current hi d _
    cases hi
    rfl
  | @snoc labels σ σ' l hr hok hn ih =>
    obtain ⟨hr', hfaithful, hwf⟩ := ih
    obtain ⟨hcurrent, hnewer⟩ := hok
    cases l with
    | turn turn =>
      obtain ⟨commands, hcommands, rfl⟩ := Option.map_eq_some_iff.mp hn
      obtain ⟨hcurrent, hfresh⟩ := hcurrent
      have hstep : Tells σ.commands.db commands.db ∧ commands.db.WellFormed := by
        rcases hfaithful.solo_of_current hcurrent hcommands with ⟨hdb, -⟩ | ⟨i, a, hsolo, hlog⟩
        · rw [hdb]
          exact ⟨.of_expenses rfl, hwf⟩
        · have hi : turn = .step i := step_of_log hcommands hlog
          have hnext : RatelPlatform.next σ.commands.db (requests i) = some commands.db := by
            simp [RatelPlatform.next, hfresh i hi, hsolo]
          exact ⟨Command.tells hwf (hfresh i hi) hsolo, hwf.next hnext⟩
      refine ⟨.snoc hr' ⟨?_, trivial⟩ hn, hfaithful.next hcommands, hstep.2⟩
      intro commands' hcommands'
      obtain rfl := Option.some.inj (hcommands.symm.trans hcommands')
      exact hstep.1
    | start | read | lookUp | upsert | fail =>
      have hsame : σ'.commands = σ.commands := (next_frame hn (by simp [Label.projector])).1
      rw [hsame]
      exact ⟨.snoc hr' ⟨trivial, hnewer⟩ hn, hfaithful, hwf⟩

/-- A projection that has not been called is idle. -/
theorem idle_of_uncalled (hr : Reaches next (fun _ _ => True) (initial administration requests)
    labels σ) {i : ℕ} (hi : ∀ l ∈ labels, l.projector ≠ some i) : σ.projections i = .idle := by
  induction hr with
  | nil => rfl
  | @snoc labels σ σ' l _ _ hn ih =>
    have hidle := ih fun l hl => hi l (List.mem_append_left _ hl)
    have hnot := hi l (by simp)
    cases l with
    | turn turn =>
      obtain ⟨commands, -, rfl⟩ := Option.map_eq_some_iff.mp hn
      exact hidle
    | start | read | lookUp | upsert | fail =>
      rw [(next_frame hn (by simp [Label.projector])).2 i hnot]
      exact hidle

end ProjectionSystem

namespace Sample

/-- User 10 enters an expense in January, and submits it. -/
def enteredAndSubmitted : ℕ → Request
  | 0 => openJanuary
  | 1 => create 101 50000
  | _ => submit 101

/-- An expense of a long chain is approved by 11 and cancelled by user 10. -/
def approvedAndCancelled : ℕ → Request
  | 0 => openJanuary
  | 1 => create 101 600000000
  | 2 => submit 101
  | 3 => approve 101 11
  | _ => request 901 (.expense (.cancel ⟨101, 1, 10⟩))

/-- The names of the department and the category. -/
def projectedNames : ExpenseReadModelProjector.Names := ⟨some "Sales", some "Travel", none, none⟩

open ProjectionSystem in
/-- Some statements of a session. -/
def turnsOf (number statements : ℕ) : List Label :=
  List.replicate statements (.turn (.step number))

open ProjectionSystem in
/-- A projection of an event of the outbox runs to its end. -/
def projects (i n : ℕ) : List Label := [.start i n, .read i, .lookUp i projectedNames, .upsert i]

/-- The two events are projected after the commands. -/
def projectedInTurn : List ProjectionSystem.Label :=
  turnsOf 0 3 ++ turnsOf 1 7 ++ turnsOf 2 6 ++ projects 0 1 ++ projects 1 2

open ProjectionSystem in
/-- A projection of the first event has read the draft when the expense is submitted, and
upserts it after both events have been projected by others. -/
def projectedLate : List Label :=
  turnsOf 0 3 ++ turnsOf 1 7 ++ [.start 0 1, .read 0] ++ turnsOf 2 6 ++ projects 1 1 ++
    projects 1 2 ++ [.lookUp 0 projectedNames, .upsert 0]

/-- The approval has loaded the expense when it is cancelled, and saves it after. -/
def approvedLate : List ProjectionSystem.Label :=
  turnsOf 0 3 ++ turnsOf 1 7 ++ turnsOf 2 6 ++ turnsOf 3 3 ++ turnsOf 4 5 ++ turnsOf 3 7

end Sample

namespace ProjectionSystem

/-- What is left to say of a run in which the first two projections were called. -/
theorem settled_of_facts {σ : ProjectionSystem} {labels : List Label} {id : Id}
    {administration : Administration} {requests : ℕ → Request}
    (hr : Reaches next (fun _ _ => True) (initial administration requests) labels σ)
    (hcalled : ∀ l ∈ labels, ∀ i ∈ l.projector, i < 2)
    (hidle : ((σ.projections 0).isIdle && (σ.projections 1).isIdle) = true)
    (hhandled : ∀ n < σ.commands.db.outbox.length, n ∈ σ.handled ∨
      (σ.commands.db.outbox[n]?.map DomainEvent.aggregateId) ≠ some id) : σ.Settled id := by
  refine ⟨fun n event hn hof => ?_, fun i => ?_⟩
  · obtain ⟨hlt, -⟩ := List.getElem?_eq_some_iff.mp hn
    apply (hhandled n hlt).resolve_right
    simp [hn, hof.2]
  · rw [Bool.and_eq_true] at hidle
    match i with
    | 0 => exact Projection.eq_idle hidle.1
    | 1 => exact Projection.eq_idle hidle.2
    | i + 2 =>
      apply idle_of_uncalled hr
      intro l hl hprojector
      have hlt := hcalled l hl _ hprojector
      omega

/-- Both events are projected after the expense is submitted: it is shown as pending. -/
theorem projected_in_sync_sample : ∃ σ, Reaches next InOrder
    (initial Sample.administration Sample.enteredAndSubmitted) Sample.projectedInTurn σ ∧
      (σ.commands.db.expenses.lookup 101).isSome ∧ σ.Settled 101 ∧ σ.Shows 101 := by
  have hrun : (runLabels (fun σ l => if decide (σ.InOrder l) = true then next σ l else none)
      (initial Sample.administration Sample.enteredAndSubmitted) Sample.projectedInTurn).map
        (fun σ => ((σ.commands.db.expenses.lookup 101).isSome,
          (σ.projections 0).isIdle && (σ.projections 1).isIdle,
          decide (∀ n < σ.commands.db.outbox.length, n ∈ σ.handled ∨
            (σ.commands.db.outbox[n]?.map DomainEvent.aggregateId) ≠ some 101))) =
      some (true, true, true) := by
    decide +kernel
  obtain ⟨σ, hσ, hfacts⟩ := Option.map_eq_some_iff.mp hrun
  simp only [Prod.mk.injEq, decide_eq_true_eq] at hfacts
  obtain ⟨hrow, hidle, hhandled⟩ := hfacts
  have hr := reaches_of_checked_inv (I := fun _ => True) trivial (fun _ _ _ _ _ _ => trivial)
    (fun _ _ _ => of_decide_eq_true) hσ
  have hsettled := settled_of_facts (hr.mono fun _ _ _ => trivial) (by decide) hidle hhandled
  exact ⟨σ, hr, hrow, hsettled, projected_in_sync hr 101 hsettled⟩

/-- **A late projection**: every event has been handled, nobody is at work, and the read
model shows a draft that has been submitted. -/
theorem shown_as_draft : ¬ ∀ (administration : Administration) (requests : ℕ → Request)
    (labels : List Label) (σ : ProjectionSystem) (id : Id),
    Reaches next (fun _ _ => True) (initial administration requests) labels σ →
      σ.Settled id → σ.Shows id := by
  intro hall
  have hrun : (runLabels next (initial Sample.administration Sample.enteredAndSubmitted)
      Sample.projectedLate).map
        (fun σ => ((σ.commands.db.expenses.lookup 101).map ExpenseRow.status,
          (σ.readModel.lookup 101).map ExpenseReadModel.status,
          (σ.projections 0).isIdle && (σ.projections 1).isIdle,
          decide (∀ n < σ.commands.db.outbox.length, n ∈ σ.handled ∨
            (σ.commands.db.outbox[n]?.map DomainEvent.aggregateId) ≠ some 101))) =
      some (some .pendingApproval, some "draft", true, true) := by
    decide +kernel
  obtain ⟨σ, hσ, hfacts⟩ := Option.map_eq_some_iff.mp hrun
  simp only [Prod.mk.injEq, decide_eq_true_eq, Option.map_eq_some_iff] at hfacts
  obtain ⟨⟨expense, hrow, hstatus⟩, ⟨model, hmodel, hdraft⟩, hidle, hhandled⟩ := hfacts
  have hr := reaches_of_runLabels hσ
  obtain ⟨model', hmodel', hsync, -⟩ :=
    hall _ _ _ σ 101 hr (settled_of_facts hr (by decide) hidle hhandled) expense hrow
  obtain rfl := Option.some.inj (hmodel.symm.trans hmodel')
  rw [hdraft, hstatus] at hsync
  exact absurd hsync (by decide)

/-- **A silent commit**: an approval that is not the last one saves the expense as it was
before it was cancelled, and enqueues no event. -/
theorem silent_commit : ∃ σ, Reaches next (fun _ _ => True)
    (initial Sample.administration Sample.approvedAndCancelled) Sample.approvedLate σ ∧
      ¬ σ.CommitsTell (.turn (.step 3)) := by
  have hrun : (runLabels next (initial Sample.administration Sample.approvedAndCancelled)
      Sample.approvedLate).map (fun σ => decide (σ.CommitsTell (.turn (.step 3)))) =
        some false := by
    decide +kernel
  obtain ⟨σ, hσ, hnot⟩ := Option.map_eq_some_iff.mp hrun
  exact ⟨σ, reaches_of_runLabels hσ, of_decide_eq_false hnot⟩

end ProjectionSystem

end RatelPlatform
