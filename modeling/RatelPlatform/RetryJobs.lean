import RatelPlatform.DispatchedEvents

/-!
# Who redrives a failed delivery

A failed delivery that awaits its retry is refused by the manual retry, so its
job has to redrive it. Until the job is in the queue, the poller that recorded
the failure still holds it.

Five steps let go of a delivery that nothing else drives: a poller whose enqueue
fails, or which stops after recording and before enqueueing, as it does when a
recording that has taken effect fails; a poller whose enqueue meets a job that
has written its outcome but has not left the queue; a worker that cannot write
the outcome of its last attempt; the queue, when it gives up a job that has
stalled too often; and an operator who writes the status after the job it
enqueued has run to its end. Without them every pending retry is driven in every
state (`retries_live_of_not_strands`).
-/

namespace RatelPlatform.DeliverySystem

variable {D : Dispatcher} {σ τ : DeliverySystem}

/-! ## Who drives a delivery -/

/-- The failed delivery awaits its retry. -/
def AwaitsRetry (σ : DeliverySystem) (key : DeliveryKey) : Prop :=
  (σ.deliveries.lookup key).map (·.status) = some .pendingRetry

instance (σ : DeliverySystem) (key : DeliveryKey) : Decidable (σ.AwaitsRetry key) :=
  inferInstanceAs (Decidable (_ = _))

/-- The delivery has a job that will still write an outcome. -/
def HasJob (σ : DeliverySystem) (key : DeliveryKey) : Prop :=
  ∃ job, σ.jobs.lookup key = some job ∧ job.phase ≠ .finished

/-- The deliveries a poller has recorded and not enqueued yet. -/
def held : Poller → List DeliveryKey
  | .recording _ _ _ recorded _ => recorded
  | .scheduling recorded _ => recorded
  | _ => []

/-- A job or a poller will redrive the delivery. -/
def Driven (σ : DeliverySystem) (key : DeliveryKey) : Prop :=
  σ.HasJob key ∨ ∃ i, key ∈ held (σ.pollers i)

/-- Once the poller `i` holds only `rest`, nothing drives the waiting delivery. -/
def Orphaned (σ : DeliverySystem) (i : ℕ) (rest : List DeliveryKey) (key : DeliveryKey) : Prop :=
  σ.AwaitsRetry key ∧ ¬ σ.HasJob key ∧ key ∉ rest ∧ ∀ j ≠ i, key ∉ held (σ.pollers j)

/-- Without its job, nothing drives the waiting delivery. -/
def Unheld (σ : DeliverySystem) (key : DeliveryKey) : Prop :=
  σ.AwaitsRetry key ∧ ∀ j, key ∉ held (σ.pollers j)

/-- The step leaves a waiting delivery that nothing drives. -/
def Strands (σ : DeliverySystem) : Label → Prop
  | .poller i (.proceed _) =>
    match σ.pollers i with
    -- the queue ignores the job, for one is still there
    | .scheduling (key :: rest) _ => (σ.jobs.lookup key).isSome ∧ σ.Orphaned i rest key
    | _ => False
  | .poller i .fail =>
    match σ.pollers i with
    | .recording _ _ _ recorded _ => ∃ key ∈ recorded, σ.Orphaned i [] key
    | .scheduling (key :: rest) _ => σ.Orphaned i rest key
    | _ => False
  | .poller i (.lose _) =>
    match σ.pollers i with
    -- nobody learns of the row that is written now, either
    | .recording id _ (failure :: _) recorded _ =>
      (∃ key ∈ recorded, σ.Orphaned i [] key) ∨
        ¬ σ.HasJob (id, failure.subscriberName) ∧
          ∀ j ≠ i, (id, failure.subscriberName) ∉ held (σ.pollers j)
    | .scheduling (key :: rest) _ => (σ.jobs.lookup key).isSome ∧ σ.Orphaned i rest key
    | _ => False
  | .poller i .crash => ∃ key ∈ held (σ.pollers i), σ.Orphaned i [] key
  | .worker key (.rejected _) =>
    match σ.jobs.lookup key with
    -- the outcome of the last attempt is not written
    | some ⟨attemptsMade, .failing _⟩ => redeliveryAttempts ≤ attemptsMade + 1 ∧ σ.Unheld key
    | _ => False
  -- the queue drops the job
  | .stall key false => σ.Unheld key
  | .operator i .proceed | .operator i .lose =>
    match σ.operators i with
    | .writing key => ¬ σ.Driven key
    | _ => False
  | _ => False

/-- Nobody is in the middle of a step: what jobs there are wait in the queue. -/
structure AtRest (σ : DeliverySystem) : Prop where
  pollers : ∀ i, σ.pollers i = .idle
  operators : ∀ i, σ.operators i = .idle
  jobs : ∀ key job, σ.jobs.lookup key = some job → job.phase = .waiting

/-- Every delivery that awaits its retry is driven. -/
def RetriesDriven (σ : DeliverySystem) : Prop :=
  ∀ key, σ.AwaitsRetry key → σ.Driven key

/-! ## Steps of pollers -/

theorem driven_update {i : ℕ} {p : Poller} {key : DeliveryKey}
    (h : key ∈ held p ∨ τ.HasJob key ∨ ∃ j ≠ i, key ∈ held (σ.pollers j)) :
    Driven { τ with pollers := Function.update σ.pollers i p } key := by
  rcases h with hself | hjob | ⟨j, hj, hother⟩
  · refine .inr ⟨i, ?_⟩
    simp only [Function.update_self]
    exact hself
  · exact .inl hjob
  · refine .inr ⟨j, ?_⟩
    simp only [Function.update_of_ne hj]
    exact hother

/-- A poller that moves on without touching deliveries or losing jobs keeps every retry
driven, if it lets go only of deliveries something else drives. -/
theorem RetriesDriven.poller (h : RetriesDriven σ) {i : ℕ} {p : Poller}
    (hdeliveries : τ.deliveries = σ.deliveries)
    (hjobs : ∀ key, σ.HasJob key → τ.HasJob key)
    (hheld : ∀ key ∈ held (σ.pollers i), key ∈ held p ∨ τ.HasJob key ∨
      ¬ σ.Orphaned i (held p) key) :
    RetriesDriven { τ with pollers := Function.update σ.pollers i p } := by
  intro key hawaits
  have hbefore : σ.AwaitsRetry key := by
    rw [AwaitsRetry, ← hdeliveries]
    exact hawaits
  apply driven_update
  rcases h key hbefore with hjob | ⟨j, hkey⟩
  · exact .inr (.inl (hjobs key hjob))
  · by_cases hj : j = i
    · subst hj
      rcases hheld key hkey with hself | hjob | hnot
      · exact .inl hself
      · exact .inr (.inl hjob)
      · by_contra hnone
        push Not at hnone
        obtain ⟨hself, hjob, hother⟩ := hnone
        exact hnot ⟨hbefore, fun hjob' => hjob (hjobs key hjob'), hself, hother⟩
    · exact .inr (.inr ⟨j, hj, hkey⟩)

theorem hasJob_addJob {key key' : DeliveryKey} (h : σ.HasJob key') :
    (σ.addJob key).HasJob key' := by
  obtain ⟨job, hjob, hres⟩ := h
  refine ⟨job, ?_, hres⟩
  simp only [addJob]
  split
  · exact hjob
  · rename_i hnone
    simp only [Table.lookup_insert_ite]
    rw [if_neg]
    · exact hjob
    · rintro rfl
      rw [hnone] at hjob
      cases hjob

/-- Where there was no job, there is one that waits. -/
theorem hasJob_addJob_self {key : DeliveryKey} (h : σ.jobs.lookup key = none) :
    (σ.addJob key).HasJob key := by
  refine ⟨⟨0, .waiting⟩, ?_, fun hphase => by cases hphase⟩
  simp only [addJob, h, Table.lookup_insert_ite, if_true]

theorem addJob_deliveries (σ : DeliverySystem) (key : DeliveryKey) :
    (σ.addJob key).deliveries = σ.deliveries := by
  obtain ⟨jobs, hjobs⟩ := σ.addJob_eq key
  rw [hjobs]

/-- A poller that records a failure keeps every retry driven, if it lets go only of deliveries
something else drives. -/
theorem RetriesDriven.recordFailure (h : RetriesDriven σ) {i : ℕ} {id : Id} {event : DomainEvent}
    {failure : SubscriberFailure} {failures : List SubscriberFailure}
    {recorded : List DeliveryKey} {rows : List (Id × OutboxEvent)} {p : Poller}
    (hp : σ.pollers i = .recording id event (failure :: failures) recorded rows)
    (hheld : ∀ key, key = (id, failure.subscriberName) ∨ key ∈ recorded ∧ σ.AwaitsRetry key →
      key ∈ held p ∨ σ.HasJob key ∨ ∃ j ≠ i, key ∈ held (σ.pollers j)) :
    RetriesDriven { σ.recordFailure id event failure with
      pollers := Function.update σ.pollers i p } := by
  intro key hawaits
  apply driven_update
  obtain ⟨new, -, hlookup⟩ := lookup_upsert σ.deliveries (id, failure.subscriberName) key
    event.type failure.error (organizationIdFromPayload event.payload)
  by_cases hkey : key = (id, failure.subscriberName)
  · exact hheld key (.inl hkey)
  · have hbefore : σ.AwaitsRetry key := by
      simp only [AwaitsRetry, DeliverySystem.recordFailure, hlookup, if_neg hkey] at hawaits
      exact hawaits
    rcases h key hbefore with hjob | ⟨j, hmem⟩
    · exact .inr (.inl hjob)
    · by_cases hj : j = i
      · subst hj
        rw [hp] at hmem
        exact hheld key (.inr ⟨hmem, hbefore⟩)
      · exact .inr (.inr ⟨j, hj, hmem⟩)

/-- A poller's step keeps every retry driven, unless it strands one. -/
theorem PollerStep.retriesDriven {i : ℕ} {p' : Poller} {a : PollerAction}
    (hstep : PollerStep D σ (σ.pollers i) a τ p') (h : RetriesDriven σ)
    (hl : ¬ σ.Strands (.poller i a)) :
    RetriesDriven { τ with pollers := Function.update σ.pollers i p' } := by
  generalize hp : σ.pollers i = p at hstep
  have hnothing : held p = [] → ∀ key ∈ held (σ.pollers i), key ∈ held p' ∨ σ.HasJob key ∨
      ¬ σ.Orphaned i (held p') key := by
    intro hnil key hkey
    rw [hp, hnil] at hkey
    exact absurd hkey List.not_mem_nil
  cases hstep with
  | poll _ => exact h.poller rfl (fun _ => id) (hnothing rfl)
  | finish => exact h.poller rfl (fun _ => id) (hnothing rfl)
  | take => exact h.poller rfl (fun _ => id) (hnothing rfl)
  | settle _ => exact h.poller rfl (fun _ => id) (hnothing rfl)
  | settled _ => exact h.poller rfl (fun _ => id) (hnothing rfl)
  | mark => exact h.poller rfl (fun _ => id) (hnothing rfl)
  | markFails | markLost => exact h.poller rfl (fun _ => id) (hnothing rfl)
  | scheduled => exact h.poller rfl (fun _ => id) (hnothing rfl)
  | recorded =>
    refine h.poller rfl (fun _ => id) fun key hkey => .inl ?_
    rw [hp] at hkey
    exact hkey
  | record =>
    refine h.recordFailure hp fun key hkey => .inl ?_
    rcases hkey with rfl | ⟨hmem, -⟩
    · exact List.mem_append_right _ List.mem_cons_self
    · exact List.mem_append_left _ hmem
  | recordLost =>
    simp only [Strands, hp, not_or, not_and] at hl
    obtain ⟨hrecorded, hwritten⟩ := hl
    refine h.recordFailure hp fun key hkey => .inr ?_
    by_contra hnone
    push Not at hnone
    rcases hkey with rfl | ⟨hmem, hawaits⟩
    · exact hwritten hnone.1 hnone.2
    · exact hrecorded ⟨key, hmem, hawaits, hnone.1, List.not_mem_nil, hnone.2⟩
  | add | addLost =>
    refine h.poller (addJob_deliveries _ _) (fun _ => hasJob_addJob) fun key' hkey => ?_
    rw [hp] at hkey
    rcases List.mem_cons.mp hkey with rfl | hrest
    · rcases hjob : σ.jobs.lookup key' with _ | job
      · exact .inr (.inl (hasJob_addJob_self hjob))
      · refine .inr (.inr fun horphaned => hl ?_)
        simp only [Strands, hp]
        exact ⟨by rw [hjob]; rfl, horphaned⟩
    · exact .inl hrest
  | recordFails =>
    refine h.poller rfl (fun _ => id) fun key hkey => .inr (.inr fun horphaned => hl ?_)
    rw [hp] at hkey
    simp only [Strands, hp]
    exact ⟨key, hkey, horphaned⟩
  | addFails =>
    refine h.poller rfl (fun _ => id) fun key hkey => ?_
    rw [hp] at hkey
    rcases List.mem_cons.mp hkey with rfl | hrest
    · refine .inr (.inr fun horphaned => hl ?_)
      simp only [Strands, hp]
      exact horphaned
    · exact .inl hrest
  | crash =>
    refine h.poller rfl (fun _ => id) fun key hkey => .inr (.inr fun horphaned => hl ?_)
    exact ⟨key, hkey, horphaned⟩

/-! ## Steps of workers and operators -/

/-- Writes that set no status to pending leave no more deliveries pending. -/
theorem pending_of_update {t : Deliveries} {key key' : DeliveryKey}
    {f : FailedEventDelivery → FailedEventDelivery}
    (hf : ∀ row, (f row).status = .pendingRetry → row.status = .pendingRetry)
    (h : ((t.update key f).lookup key').map (·.status) = some .pendingRetry) :
    (t.lookup key').map (·.status) = some .pendingRetry := by
  rw [Table.lookup_update] at h
  split_ifs at h with hkey
  · rw [Option.map_map] at h
    obtain ⟨row, hrow, hstatus⟩ := Option.map_eq_some_iff.mp h
    rw [hkey, hrow, Option.map_some, hf row hstatus]
  · exact h

/-- A job sets no delivery on waiting. -/
theorem awaitsRetry_of_jobStep {key key' : DeliveryKey} {job : Job} {result : CallResult}
    (h : ((jobStep D σ key job result).deliveries.lookup key').map (·.status) =
      some .pendingRetry) : σ.AwaitsRetry key' := by
  generalize hafter : jobStep D σ key job result = after at h
  have hstep := jobStep_cases hafter
  generalize job.phase = phase at hstep
  cases hstep with
  | recover | recoverLost => exact pending_of_update (by simp) h
  | abandon | abandonLost | giveUp _ _ => exact pending_of_update (by simp) h
  | record _ _ => exact pending_of_update (by simp) h
  | _ => exact h

/-- A job that will write no more leaves no delivery awaiting its retry, unless the outcome of
its last attempt was not written. -/
theorem jobStep_resolves {key : DeliveryKey} {job : Job} (hjob : job.phase ≠ .finished)
    (result : CallResult) :
    (∃ job', (jobStep D σ key job result).job = some job' ∧ job'.phase ≠ .finished) ∨
    ((jobStep D σ key job result).deliveries.lookup key).map (·.status) ≠ some .pendingRetry ∨
    ∃ error error', job.phase = .failing error ∧ result = .rejected error' ∧
      redeliveryAttempts ≤ job.attemptsMade + 1 := by
  have hupdate : ∀ (f : FailedEventDelivery → FailedEventDelivery) (status : EventDeliveryStatus),
      (∀ row, (f row).status = status) → status ≠ .pendingRetry →
      ((σ.deliveries.update key f).lookup key).map (·.status) ≠ some .pendingRetry := by
    intro f status hf hstatus hpending
    rw [Table.lookup_update, if_pos rfl, Option.map_map] at hpending
    obtain ⟨row, -, hrow⟩ := Option.map_eq_some_iff.mp hpending
    exact hstatus ((hf row).symm.trans hrow)
  generalize hafter : jobStep D σ key job result = after
  have hstep := jobStep_cases hafter
  generalize job.phase = phase at hstep hjob
  cases hstep with
  | skip hrecovered =>
    refine .inr (.inl fun hpending => ?_)
    obtain ⟨row, hrow, hstatus⟩ := Option.map_eq_some_iff.mp hpending
    cases hstatus.symm.trans (hrecovered row hrow)
  | recover => exact .inr (.inl (hupdate _ .recovered (fun _ => rfl) (by decide)))
  | abandon => exact .inr (.inl (hupdate _ .permanentlyFailed (fun _ => rfl) (by decide)))
  | giveUp _ _ => exact .inr (.inl (hupdate _ .permanentlyFailed (fun _ => rfl) (by decide)))
  | giveUpFails hlast => exact .inr (.inr ⟨_, _, rfl, rfl, hlast⟩)
  | leave => exact absurd rfl hjob
  | _ => exact .inl ⟨_, rfl, by simp⟩

/-- Whatever becomes of the job of one delivery, the others keep theirs. -/
theorem HasJob.of_lookup {key : DeliveryKey} (h : σ.HasJob key)
    (hjobs : τ.jobs.lookup key = σ.jobs.lookup key) : τ.HasJob key := by
  obtain ⟨job, hjob, hne⟩ := h
  exact ⟨job, hjobs.trans hjob, hne⟩

/-- A worker's step keeps every retry driven, unless it strands one: its job writes the outcome
before it ends. -/
theorem RetriesDriven.worker (h : RetriesDriven σ) {key : DeliveryKey} {job : Job}
    (hjob : σ.jobs.lookup key = some job) {result : CallResult}
    (hl : ¬ σ.Strands (.worker key result)) :
    RetriesDriven { σ with
      deliveries := (jobStep D σ key job result).deliveries
      completed := (jobStep D σ key job result).completed
      jobs := match (jobStep D σ key job result).job with
        | some job => σ.jobs.insert key job
        | none => σ.jobs.erase key } := by
  intro key' hawaits
  simp only [AwaitsRetry] at hawaits
  have hbefore : σ.AwaitsRetry key' := awaitsRetry_of_jobStep hawaits
  by_cases hkey : key' = key
  · subst hkey
    by_cases hphase : job.phase = .finished
    · rcases h key' hbefore with ⟨job', hjob', hne⟩ | hheld
      · obtain rfl := Option.some.inj (hjob'.symm.trans hjob)
        exact absurd hphase hne
      · exact .inr hheld
    · rcases @jobStep_resolves D σ key' _ hphase result with
        ⟨job', hafter, hne⟩ | hnot | ⟨error, error', hfailing, rfl, hlast⟩
      · refine .inl ⟨job', ?_, hne⟩
        simp only [hafter, Table.lookup_insert_ite, if_true]
      · exact absurd hawaits hnot
      · obtain ⟨attemptsMade, phase⟩ := job
        obtain rfl : phase = .failing error := hfailing
        refine .inr (by_contra fun hnone => hl ?_)
        simp only [Strands, hjob]
        exact ⟨hlast, hbefore, fun j hj => hnone ⟨j, hj⟩⟩
  · rcases h key' hbefore with hjob' | hheld
    · refine .inl (hjob'.of_lookup ?_)
      dsimp only
      split
      · rw [Table.lookup_insert_ite, if_neg hkey]
      · rw [Finmap.lookup_erase_ne hkey]
    · exact .inr hheld

/-- The queue keeps every retry driven, unless it drops the job of one. -/
theorem RetriesDriven.stall (h : RetriesDriven σ) {key : DeliveryKey} {again : Bool} {job : Job}
    (hl : ¬ σ.Strands (.stall key again)) :
    RetriesDriven { σ with
      jobs := if again then σ.jobs.insert key ⟨job.attemptsMade, .waiting⟩ else σ.jobs.erase key
      stalled := σ.stalled ++ [(key, job)] } := by
  intro key' hawaits
  by_cases hkey : key' = key
  · subst hkey
    cases again with
    | true =>
      refine .inl ⟨⟨job.attemptsMade, .waiting⟩, ?_, by simp⟩
      simp only [if_true, Finmap.lookup_insert]
    | false => exact .inr (by_contra fun hnone => hl ⟨hawaits, fun j hj => hnone ⟨j, hj⟩⟩)
  · rcases h key' hawaits with hjob | hheld
    · refine .inl (hjob.of_lookup ?_)
      dsimp only
      split_ifs
      · rw [Table.lookup_insert_ite, if_neg hkey]
      · rw [Finmap.lookup_erase_ne hkey]
    · exact .inr hheld

/-- Enqueueing a job keeps every retry driven. -/
theorem RetriesDriven.addJob (h : RetriesDriven σ) (key : DeliveryKey) :
    RetriesDriven (σ.addJob key) := by
  intro key' hawaits
  rw [AwaitsRetry, addJob_deliveries] at hawaits
  rcases h key' hawaits with hjob | ⟨j, hheld⟩
  · exact .inl (hasJob_addJob hjob)
  · refine .inr ⟨j, ?_⟩
    rw [addJob_pollers]
    exact hheld

/-- Setting a driven delivery on waiting keeps every retry driven. -/
theorem RetriesDriven.setPendingRetry (h : RetriesDriven σ) {key : DeliveryKey}
    (hkey : σ.Driven key) : RetriesDriven (σ.setPendingRetry key) := by
  intro key' hawaits
  by_cases hne : key' = key
  · rw [hne]
    exact hkey
  · simp only [AwaitsRetry, DeliverySystem.setPendingRetry, Table.lookup_update,
      if_neg hne] at hawaits
    exact h key' hawaits

/-- An operator's step keeps every retry driven, unless it strands one. -/
theorem OperatorStep.retriesDriven {i : ℕ} {o' : Operator} {a : OperatorAction}
    (hstep : OperatorStep σ (σ.operators i) a τ o') (h : RetriesDriven σ)
    (hl : ¬ σ.Strands (.operator i a)) : RetriesDriven τ := by
  generalize ho : σ.operators i = o at hstep
  cases hstep with
  | request | fail => exact h
  | add | addLost => exact h.addJob _
  | write | writeLost =>
    simp only [Strands, ho, not_not] at hl
    exact h.setPendingRetry hl

/-! ## The result -/

theorem retriesDriven_next {l : Label} (h : next D σ l = some τ) (hd : RetriesDriven σ)
    (hl : ¬ σ.Strands l) : RetriesDriven τ := by
  rcases next_cases h with ⟨id, event, now, -, -, rfl⟩ | ⟨i, a, ρ, p, rfl, hstep, rfl⟩ |
    ⟨key, result, job, rfl, hjob, rfl⟩ | ⟨key, again, job, rfl, -, -, rfl⟩ |
    ⟨i, result, key, job, -, -, -, rfl⟩ | ⟨i, a, ρ, o, rfl, hstep, rfl⟩
  · exact hd
  · exact hstep.retriesDriven hd hl
  · exact hd.worker hjob hl
  · exact hd.stall hl
  · exact fun key' hawaits => hd key' (awaitsRetry_of_jobStep hawaits)
  · have hafter : RetriesDriven ρ := hstep.retriesDriven hd hl
    exact hafter

/-- In a run that strands no delivery, every pending retry is driven. -/
theorem Runs.retriesDriven {ls : List Label}
    (hr : Reaches (next D) (fun σ l => ¬ σ.Strands l) initial ls σ) : RetriesDriven σ := by
  refine Reaches.invariant (P := RetriesDriven) ?_ ?_ hr
  · intro key hawaits
    cases hawaits
  · intro t l u ht hl hn
    exact retriesDriven_next hn ht hl

/-- **Every pending retry has a live job**: in a run whose steps strand no
delivery, whenever everybody is at rest, each failed delivery that awaits its
retry has a job waiting in the queue. -/
theorem retries_live_of_not_strands {ls : List Label}
    (hr : Reaches (next D) (fun σ l => ¬ σ.Strands l) initial ls σ) (hrest : σ.AtRest)
    {key : DeliveryKey} (hawaits : σ.AwaitsRetry key) :
    ∃ job, σ.jobs.lookup key = some job ∧ job.phase = .waiting := by
  rcases Runs.retriesDriven hr key hawaits with ⟨job, hjob, -⟩ | ⟨i, hheld⟩
  · exact ⟨job, hjob, hrest.jobs key job hjob⟩
  · rw [hrest.pollers i] at hheld
    exact absurd hheld List.not_mem_nil

/-! ## Two schedules of one failure -/

namespace Sample

/-- The subscriber fails, and its failure is recorded. -/
def recordedFailure : List Label :=
  [.enqueue 1 submitted noon, .poller 0 (.poll [1]), .poller 0 (.proceed noon),
    .poller 0 (.settle 0 (.rejected "connection refused")), .poller 0 (.proceed noon),
    .poller 0 (.proceed noon), .poller 0 (.proceed noon), .poller 0 (.proceed noon)]

/-- The retry is enqueued, and the poller finishes its batch. -/
def enqueued : List Label :=
  recordedFailure ++ [.poller 0 (.proceed noon), .poller 0 (.proceed noon),
    .poller 0 (.proceed noon)]

/-- The retry cannot be enqueued, and the poller finishes its batch. -/
def notEnqueued : List Label :=
  recordedFailure ++ [.poller 0 .fail, .poller 0 (.proceed noon), .poller 0 (.proceed noon)]

/-- The step fails nowhere, and enqueues only where there is no job. -/
def enqueuesAnew (σ : DeliverySystem) : Label → Bool
  | .poller i (.proceed _) =>
    match σ.pollers i with
    | .scheduling (key :: _) _ => (σ.jobs.lookup key).isNone
    | _ => true
  | .poller _ .fail => false
  | .poller _ (.lose _) => false
  | .poller _ .crash => false
  | .worker key (.rejected _) =>
    match σ.jobs.lookup key with
    | some job => job.attemptsMade + 1 < redeliveryAttempts
    | none => true
  | .stall _ again => again
  | .operator _ .proceed => false
  | .operator _ .lose => false
  | _ => true

theorem not_strands_of_enqueuesAnew (σ : DeliverySystem) (l : Label) (h : enqueuesAnew σ l) :
    ¬ σ.Strands l := by
  intro hs
  rcases l with _ | ⟨i, _ | _ | now | _ | _ | _⟩ | ⟨key, _ | error | _⟩ | ⟨key, _ | _⟩ | _ |
    ⟨i, _ | _ | _ | _⟩
  case poller.proceed =>
    simp only [Strands] at hs
    split at hs
    · rename_i key rest rows hp
      simp only [enqueuesAnew, hp, Option.isNone_iff_eq_none] at h
      rw [h] at hs
      cases hs.1
    · exact hs
  case worker.rejected =>
    simp only [Strands] at hs
    split at hs
    · rename_i attemptsMade phase hjob
      simp only [enqueuesAnew, hjob, decide_eq_true_eq] at h
      omega
    · exact hs
  all_goals first | exact hs | cases h

/-- The read of a worker fails, the attempt is recorded though that call fails too, and the job
waits again. The next worker is too slow: the job is taken from it, and it goes on. -/
def redriven : List Label :=
  enqueued ++ [.worker (1, "AuditSubscriber") .fulfilled,
    .worker (1, "AuditSubscriber") (.rejected "timeout"),
    .worker (1, "AuditSubscriber") (.lost "timeout"), .worker (1, "AuditSubscriber") .fulfilled,
    .worker (1, "AuditSubscriber") .fulfilled, .stall (1, "AuditSubscriber") true,
    .straggler 0 .fulfilled]

theorem redriven_not_strands :
    Reaches (next dispatcher) (fun σ l => ¬ σ.Strands l) initial redriven (state redriven) := by
  obtain ⟨σ, hr⟩ : ∃ σ, Reaches (next dispatcher) (fun σ l => ¬ σ.Strands l) initial redriven σ :=
    exists_reaches_of_checked not_strands_of_enqueuesAnew (by decide +kernel)
  have hstate : state redriven = σ := by
    rw [state, hr.runLabels_eq]
    rfl
  rw [hstate]
  exact hr

theorem redriven_atRest : (state redriven).AtRest := by
  refine ⟨fun i => ?_, fun _ => rfl, fun key job hjob => ?_⟩
  · rcases i with _ | i
    · rfl
    · rfl
  · by_cases hkey : key = (1, "AuditSubscriber")
    · have hphase : ((state redriven).jobs.lookup (1, "AuditSubscriber")).map
          (fun job => job.phase.isActive) = some false := by
        decide +kernel
      rw [← hkey, hjob, Option.map_some, Option.some.injEq] at hphase
      generalize job.phase = phase at hphase
      cases phase with
      | waiting => rfl
      | _ => cases hphase
    · have hkeys : (state redriven).jobs.keys = {(1, "AuditSubscriber")} := by decide +kernel
      have hmem := Finmap.mem_keys.mpr (Finmap.mem_of_lookup_eq_some hjob)
      rw [hkeys, Finset.mem_singleton] at hmem
      exact absurd hmem hkey

theorem notEnqueued_atRest : (state notEnqueued).AtRest := by
  have hjobs : (state notEnqueued).jobs = ∅ := rfl
  refine ⟨fun i => ?_, fun _ => rfl, fun key job hjob => ?_⟩
  · rcases i with _ | i
    · rfl
    · rfl
  · rw [hjobs] at hjob
    cases hjob

end Sample

/-- A retry stays live, though a call of its worker fails and the next one loses the job. -/
theorem retries_live_of_not_strands_sample :
    ∃ job, (Sample.state Sample.redriven).jobs.lookup (1, "AuditSubscriber") = some job ∧
      job.phase = .waiting :=
  retries_live_of_not_strands Sample.redriven_not_strands Sample.redriven_atRest (by decide +kernel)

/-- **A failed delivery is stuck**: its retry could not be enqueued. Everybody is
at rest, the delivery awaits its retry, there is no job, and the manual retry is
refused. -/
theorem retry_stuck : ∃ σ, Runs Sample.dispatcher Sample.notEnqueued σ ∧ σ.AtRest ∧
    σ.AwaitsRetry (1, "AuditSubscriber") ∧ σ.jobs.lookup (1, "AuditSubscriber") = none ∧
    ∀ organizationId, σ.checkRetry (1, "AuditSubscriber") organizationId ≠ .ok () := by
  refine ⟨_, Sample.runs (by decide +kernel), Sample.notEnqueued_atRest, by decide +kernel, rfl,
    fun organizationId => ?_⟩
  have hawaits : (Sample.state Sample.notEnqueued).AwaitsRetry (1, "AuditSubscriber") := by
    decide +kernel
  obtain ⟨row, hrow, hstatus⟩ := Option.map_eq_some_iff.mp hawaits
  rw [checkRetry, hrow]
  simp only
  split_ifs with horganization hpermanent
  · exact nofun
  · exact nofun
  · rw [not_not, hstatus] at hpermanent
    cases hpermanent

end RatelPlatform.DeliverySystem
