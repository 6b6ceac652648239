import RatelPlatform.AuditTrail

/-!
# What a dispatched event owes the audit log

Whether an event has its entry is up to the delivery. A call of the subscriber that succeeds has
made one, and a delivery that has recovered was called with success. A call that fails is
recorded once the event has been marked, by the poller that marked it. So unless a poller dies
or a call of the database fails in between, a dispatched event that has no entry has a failed
delivery of the subscriber that says so, or is about to have one (`audit_trail_complete`).
-/

namespace RatelPlatform

namespace DeliverySystem

variable {D : Dispatcher} {σ τ : DeliverySystem}

/-! ## Recovered deliveries -/

/-- The subscriber of a delivery has completed on its event. -/
def HasCompleted (σ : DeliverySystem) (key : DeliveryKey) : Prop :=
  ∃ s, s.name = key.2 ∧ (key.1, s) ∈ σ.completed

theorem Grows.hasCompleted (h : Grows σ τ) {key : DeliveryKey} (hc : σ.HasCompleted key) :
    τ.HasCompleted key := by
  obtain ⟨s, hname, hs⟩ := hc
  exact ⟨s, hname, h.completed _ hs⟩

/-- Where a delivery has recovered, or is about to be marked so, its subscriber has completed. -/
structure RecoveredCompleted (σ : DeliverySystem) : Prop where
  rows : ∀ key row, σ.deliveries.lookup key = some row → row.status = .recovered →
    σ.HasCompleted key
  jobs : ∀ key job, σ.jobs.lookup key = some job → job.phase = .recovering → σ.HasCompleted key
  stalled : ∀ r ∈ σ.stalled, r.2.phase = .recovering → σ.HasCompleted r.1

/-- Adding a job sets none on recovering. -/
theorem lookup_addJob {key key' : DeliveryKey} {job : Job}
    (hjob : (σ.addJob key).jobs.lookup key' = some job) (hphase : job.phase = .recovering) :
    σ.jobs.lookup key' = some job := by
  simp only [addJob] at hjob
  split at hjob
  · exact hjob
  · obtain ⟨-, rfl⟩ | ⟨-, hold⟩ := Table.lookup_insert_cases hjob
    · cases hphase
    · exact hold

/-- What marks no delivery recovered and works on no job. -/
structure LeavesRecovery (σ τ : DeliverySystem) : Prop where
  rows : ∀ key row, τ.deliveries.lookup key = some row → row.status = .recovered →
    σ.deliveries.lookup key = some row
  jobs : ∀ key job, τ.jobs.lookup key = some job → job.phase = .recovering →
    σ.jobs.lookup key = some job
  stalled : τ.stalled = σ.stalled

theorem LeavesRecovery.refl (σ : DeliverySystem) : LeavesRecovery σ σ :=
  ⟨fun _ _ hrow _ => hrow, fun _ _ hjob _ => hjob, rfl⟩

theorem addJob_leavesRecovery (σ : DeliverySystem) (key : DeliveryKey) :
    LeavesRecovery σ (σ.addJob key) := by
  refine ⟨fun key' row hrow _ => ?_, fun key' job hjob => lookup_addJob hjob, ?_⟩
  · obtain ⟨jobs, hjobs⟩ := σ.addJob_eq key
    rwa [hjobs] at hrow
  · obtain ⟨jobs, hjobs⟩ := σ.addJob_eq key
    rw [hjobs]

/-- A poller neither marks a delivery recovered nor works on a job. -/
theorem PollerStep.recovered {p p' : Poller} {a : PollerAction} (h : PollerStep D σ p a τ p') :
    LeavesRecovery σ τ := by
  cases h with
  | @record id event failure _ _ _ _ | @recordLost id event failure _ _ _ _ =>
    refine ⟨fun key row hrow hrecovered => ?_, fun _ _ hjob _ => hjob, rfl⟩
    obtain ⟨failed, hpending, hlookup⟩ := lookup_upsert σ.deliveries (id, failure.subscriberName)
      key event.type failure.error (organizationIdFromPayload event.payload)
    rw [recordFailure, hlookup] at hrow
    split_ifs at hrow
    · obtain rfl := Option.some.inj hrow
      cases hpending.symm.trans hrecovered
    · exact hrow
  | add | addLost => exact addJob_leavesRecovery σ _
  | _ => exact ⟨fun _ _ hrow _ => hrow, fun _ _ hjob _ => hjob, rfl⟩

/-- Nor does an operator. -/
theorem OperatorStep.recovered {o o' : Operator} {a : OperatorAction}
    (h : OperatorStep σ o a τ o') : LeavesRecovery σ τ := by
  cases h with
  | request | fail => exact .refl σ
  | add | addLost => exact addJob_leavesRecovery σ _
  | write | writeLost =>
    refine ⟨fun key' row hrow hrecovered => ?_, fun _ _ hjob _ => hjob, rfl⟩
    rw [setPendingRetry, Table.lookup_update] at hrow
    split_ifs at hrow
    · obtain ⟨row, -, rfl⟩ := Option.map_eq_some_iff.mp hrow
      cases hrecovered
    · exact hrow

/-- A job marks its delivery recovered when it is about to, and is about to when the subscriber
has completed. -/
theorem jobStep_recovered {key : DeliveryKey} {job : Job} {result : CallResult} :
    (∀ key' row, (jobStep D σ key job result).deliveries.lookup key' = some row →
      row.status = .recovered → (key' = key ∧ job.phase = .recovering) ∨
        ∃ old, σ.deliveries.lookup key' = some old ∧ old.status = .recovered) ∧
    ∀ job', (jobStep D σ key job result).job = some job' → job'.phase = .recovering →
      ∃ s, s.name = key.2 ∧ (key.1, s) ∈ (jobStep D σ key job result).completed := by
  -- the other writes of a job set no status to recovered
  have hother : ∀ f : FailedEventDelivery → FailedEventDelivery,
      (∀ row, (f row).status = .recovered → row.status = .recovered) →
      ∀ key' row, (Table.update σ.deliveries key f).lookup key' = some row →
        row.status = .recovered →
          ∃ old, σ.deliveries.lookup key' = some old ∧ old.status = .recovered := by
    intro f hf key' row hrow hrecovered
    rw [Table.lookup_update] at hrow
    split_ifs at hrow with hkey
    · obtain ⟨old, hold, rfl⟩ := Option.map_eq_some_iff.mp hrow
      exact ⟨old, hkey ▸ hold, hf old hrecovered⟩
    · exact ⟨row, hrow, hrecovered⟩
  generalize hafter : jobStep D σ key job result = after
  have hstep := jobStep_cases hafter
  generalize job.phase = phase at hstep ⊢
  cases hstep with
  | @deliver event s hs =>
    refine ⟨fun _ row hrow hrecovered => .inr ⟨row, hrow, hrecovered⟩, fun _ _ _ => ⟨s, ?_, ?_⟩⟩
    · simpa using List.find?_some hs
    · exact List.mem_append_right _ (List.mem_singleton_self _)
  | recover | recoverLost =>
    refine ⟨fun key' row hrow hrecovered => ?_, by simp⟩
    rw [Deliveries.markRecovered, Table.lookup_update] at hrow
    split_ifs at hrow with hkey
    · exact .inl ⟨hkey, rfl⟩
    · exact .inr ⟨row, hrow, hrecovered⟩
  | abandon | abandonLost | giveUp _ _ =>
    exact ⟨fun key' row hrow hrecovered => .inr (hother _ (by simp) key' row hrow hrecovered),
      by simp⟩
  | record _ _ =>
    exact ⟨fun key' row hrow hrecovered => .inr (hother _ (by simp) key' row hrow hrecovered),
      by simp⟩
  | _ => exact ⟨fun _ row hrow hrecovered => .inr ⟨row, hrow, hrecovered⟩, by simp⟩

/-- **Recovered deliveries have completed**: one step. -/
theorem RecoveredCompleted.next {l : Label} (h : σ.RecoveredCompleted)
    (hn : DeliverySystem.next D σ l = some τ) : τ.RecoveredCompleted := by
  have hgrows := next_grows hn
  have hkeep : LeavesRecovery σ τ → τ.RecoveredCompleted := fun hleaves =>
    ⟨fun key row hrow hrecovered =>
        hgrows.hasCompleted (h.rows key row (hleaves.rows key row hrow hrecovered) hrecovered),
      fun key job hjob hphase =>
        hgrows.hasCompleted (h.jobs key job (hleaves.jobs key job hjob hphase) hphase),
      fun r hr hphase => hgrows.hasCompleted (h.stalled r (hleaves.stalled ▸ hr) hphase)⟩
  rcases next_cases hn with ⟨id, event, now, -, -, rfl⟩ | ⟨i, a, ρ, p, -, hstep, rfl⟩ |
    ⟨key, result, job, -, hjob, rfl⟩ | ⟨key, again, job, -, hjob, -, rfl⟩ |
    ⟨i, result, key, job, -, hjob, -, rfl⟩ | ⟨i, a, ρ, o, -, hstep, rfl⟩
  · exact hkeep ⟨fun _ _ hrow _ => hrow, fun _ _ hjob _ => hjob, rfl⟩
  · exact hkeep ⟨hstep.recovered.rows, hstep.recovered.jobs, hstep.recovered.stalled⟩
  · obtain ⟨hrows, hjobs⟩ := @jobStep_recovered D σ key job result
    refine ⟨fun key' row hrow hrecovered => ?_, fun key' job' hjob' hphase => ?_,
      fun r hr hphase => hgrows.hasCompleted (h.stalled r hr hphase)⟩
    · rcases hrows key' row hrow hrecovered with ⟨rfl, hphase⟩ | ⟨old, hold, hold'⟩
      · exact hgrows.hasCompleted (h.jobs _ job hjob hphase)
      · exact hgrows.hasCompleted (h.rows key' old hold hold')
    · dsimp only at hjob'
      split at hjob'
      · next after hafter =>
        obtain ⟨rfl, rfl⟩ | ⟨-, hold⟩ := Table.lookup_insert_cases hjob'
        · exact hjobs _ hafter hphase
        · exact hgrows.hasCompleted (h.jobs key' job' hold hphase)
      · rw [Table.lookup_erase_ite] at hjob'
        split_ifs at hjob'
        exact hgrows.hasCompleted (h.jobs key' job' hjob' hphase)
  · refine ⟨h.rows, fun key' job' hjob' hphase => ?_, fun r hr hphase => ?_⟩
    · dsimp only at hjob'
      split_ifs at hjob'
      · obtain ⟨-, rfl⟩ | ⟨-, hold⟩ := Table.lookup_insert_cases hjob'
        · cases hphase
        · exact h.jobs key' job' hold hphase
      · rw [Table.lookup_erase_ite] at hjob'
        split_ifs at hjob'
        exact h.jobs key' job' hjob' hphase
    · rcases List.mem_append.mp hr with hold | hnew
      · exact h.stalled r hold hphase
      · obtain rfl := List.mem_singleton.mp hnew
        exact h.jobs key job hjob hphase
  · obtain ⟨hrows, hjobs⟩ := @jobStep_recovered D σ key job result
    have hmem := List.mem_of_getElem? hjob
    refine ⟨fun key' row hrow hrecovered => ?_,
      fun key' job' hjob' hphase => hgrows.hasCompleted (h.jobs key' job' hjob' hphase),
      fun r hr hphase => ?_⟩
    · rcases hrows key' row hrow hrecovered with ⟨rfl, hphase⟩ | ⟨old, hold, hold'⟩
      · exact hgrows.hasCompleted (h.stalled _ hmem hphase)
      · exact hgrows.hasCompleted (h.rows key' old hold hold')
    · rcases List.mem_or_eq_of_mem_set hr with hold | rfl
      · exact hgrows.hasCompleted (h.stalled r hold hphase)
      · rcases hafter : (jobStep D σ key job result).job with _ | job'
        · simp only [hafter, Option.getD_none] at hphase
          exact hgrows.hasCompleted (h.stalled _ hmem hphase)
        · simp only [hafter, Option.getD_some] at hphase
          exact hjobs job' hafter hphase
  · have hleaves := hstep.recovered
    exact hkeep ⟨hleaves.rows, hleaves.jobs, hleaves.stalled⟩

/-! ## Failures under way -/

/-- A poller is still to record a failure of the subscriber. -/
def FailureUnderWay (σ : DeliverySystem) (id : Id) (s : RegisteredSubscriber) : Prop :=
  ∃ i event failures recorded rows, σ.pollers i = .recording id event failures recorded rows ∧
    ∃ failure ∈ failures, failure.subscriberName = s.name

/-- Each subscriber of a dispatched event has completed, or has failed and is recorded to have,
or will be. -/
def DispatchedSettled (D : Dispatcher) (σ : DeliverySystem) : Prop :=
  ∀ id row, σ.outboxEvents.lookup id = some row → row.status = .dispatched →
    ∀ s ∈ D.subscribersFor row.event.type, σ.Accounted id s ∨ σ.FailureUnderWay id s

/-- A poller dies, or a call of the database fails, with failures still to be recorded, those
apart that the call records all the same. -/
def LosesFailures (σ : DeliverySystem) : Label → Prop
  | .poller i .crash | .poller i .fail =>
    match σ.pollers i with
    | .recording _ _ failures _ _ => failures ≠ []
    | _ => False
  | .poller i (.lose _) =>
    match σ.pollers i with
    | .marking id _ results _ => σ.IsPending id ∧ results.failures ≠ []
    | .recording _ _ failures _ _ => failures.tail ≠ []
    | _ => False
  | _ => False

theorem accounted_recordFailure {id : Id} {event : DomainEvent} {failure : SubscriberFailure}
    {s : RegisteredSubscriber} {pollers : ℕ → Poller} (hname : failure.subscriberName = s.name) :
    Accounted { σ.recordFailure id event failure with pollers } id s := by
  obtain ⟨row, -, hrow⟩ := lookup_upsert σ.deliveries (id, s.name) (id, s.name) event.type
    failure.error (organizationIdFromPayload event.payload)
  right
  refine ⟨row, ?_⟩
  simp only [recordFailure, hname]
  rw [hrow, if_pos rfl]

/-- A failure that a poller is to record is recorded next, or later, or lost. -/
theorem FailureUnderWay.next {l : Label} {id : Id} {s : RegisteredSubscriber}
    (h : σ.FailureUnderWay id s) (hn : DeliverySystem.next D σ l = some τ)
    (hl : ¬ σ.LosesFailures l) : τ.Accounted id s ∨ τ.FailureUnderWay id s := by
  obtain ⟨i, event, failures, recorded, rows, hp, failure, hmem, hname⟩ := h
  have hstay : τ.pollers i = σ.pollers i → τ.FailureUnderWay id s := fun heq =>
    ⟨i, event, failures, recorded, rows, heq.trans hp, failure, hmem, hname⟩
  rcases next_cases hn with ⟨id', event', now, -, -, rfl⟩ | ⟨j, a, ρ, p, rfl, hstep, rfl⟩ |
    ⟨key, result, job, -, -, rfl⟩ | ⟨key, again, job, -, -, -, rfl⟩ |
    ⟨j, result, key, job, -, -, -, rfl⟩ | ⟨j, a, ρ, o, -, hstep, rfl⟩
  · exact .inr (hstay rfl)
  · by_cases hij : i = j
    · subst hij
      rw [hp] at hstep
      cases hstep with
      | @record _ _ first rest _ _ now =>
        rcases List.mem_cons.mp hmem with rfl | hrest
        · exact .inl (accounted_recordFailure hname)
        · exact .inr ⟨i, _, _, _, _, Function.update_self .., failure, hrest, hname⟩
      | recorded => exact absurd hmem List.not_mem_nil
      | @recordLost _ _ first rest _ _ now =>
        simp only [LosesFailures, hp, List.tail_cons, not_not] at hl
        rw [hl, List.mem_singleton] at hmem
        subst hmem
        exact .inl (accounted_recordFailure hname)
      | recordFails | crash =>
        refine absurd ?_ hl
        simp only [LosesFailures, hp]
        exact List.ne_nil_of_mem hmem
    · exact .inr (hstay (Function.update_of_ne hij ..))
  · exact .inr (hstay rfl)
  · exact .inr (hstay rfl)
  · exact .inr (hstay rfl)
  · exact .inr (hstay (by simp only [hstep.pollers_eq]))

theorem mem_failures {results : Results} {s : RegisteredSubscriber} {error : String}
    (h : (s, some (Settled.rejected error)) ∈ results) : ⟨s.name, error⟩ ∈ results.failures :=
  List.mem_filterMap.mpr ⟨_, h, rfl⟩

/-- **Dispatched events are settled**: one step, that loses no failure. -/
theorem dispatchedSettled_next {l : Label} (h : next D σ l = some τ)
    (hs : ∀ i, PollerSound D σ (σ.pollers i)) (hd : DispatchedSettled D σ)
    (hl : ¬ σ.LosesFailures l) : DispatchedSettled D τ := by
  intro id row' hrow hdispatched s hsub
  have hgrows := next_grows h
  rcases dispatched_cases h hrow hdispatched with ⟨row, hold, hevent, hstatus⟩ |
    ⟨i, a, event, results, rows, rfl, heffect, hp, hpending, hpub⟩
  · rw [← hevent] at hsub
    rcases hd id row hold hstatus s hsub with haccounted | hunderWay
    · exact .inl (hgrows.accounted haccounted)
    · exact hunderWay.next h hl
  · have hsound := (hs i).2
    rw [hp] at hsound
    rcases hsound.outcome hpub hsub with hcompleted | ⟨error, hr⟩
    · exact .inl (hgrows.accounted (.inl hcompleted))
    · have hfailure := mem_failures hr
      cases a with
      | proceed now =>
        -- the poller that marks the row goes on to record what failed
        simp only [next, hp, pollerStep, Option.map_some, Option.some.injEq,
          if_neg (List.ne_nil_of_mem hfailure)] at h
        refine .inr ⟨i, event, results.failures, [], rows, ?_, _, hfailure, rfl⟩
        rw [← h]
        exact Function.update_self ..
      | lose now =>
        refine absurd ?_ hl
        simp only [LosesFailures, hp]
        exact ⟨hpending, List.ne_nil_of_mem hfailure⟩
      | _ => cases heffect

/-! ## Completed calls of the audit subscriber -/

theorem OperatorStep.completed_eq {o o' : Operator} {a : OperatorAction}
    (h : OperatorStep σ o a τ o') : τ.completed = σ.completed := by
  cases h with
  | request | fail | write | writeLost => rfl
  | add | addLost =>
    obtain ⟨jobs, hjobs⟩ := σ.addJob_eq _
    rw [hjobs]

/-- A poller completes a call when it settles it with success. -/
theorem PollerStep.completed_cases {p p' : Poller} {a : PollerAction}
    (h : PollerStep D σ p a τ p') {c : Id × RegisteredSubscriber} (hc : c ∈ τ.completed) :
    c ∈ σ.completed ∨ ∃ (i : ℕ) (event : DomainEvent) (results : Results)
      (rows : List (Id × OutboxEvent)), p = .dispatching c.1 event results rows ∧
        a = .settle i .fulfilled ∧ results[i]? = some (c.2, none) := by
  cases h with
  | @settle id event results rows i s result hi =>
    dsimp only at hc
    split_ifs at hc with hresult
    · rcases List.mem_append.mp hc with hold | hnew
      · exact .inl hold
      · obtain rfl := List.mem_singleton.mp hnew
        rw [hresult]
        exact .inr ⟨i, event, results, rows, rfl, rfl, hi⟩
    · exact .inl hc
  | add | addLost =>
    obtain ⟨jobs, hjobs⟩ := σ.addJob_eq _
    rw [hjobs] at hc
    exact .inl hc
  | _ => exact .inl hc

/-- A job completes the call that its subscriber ends with success. -/
theorem jobStep_completed {key : DeliveryKey} {job : Job} {result : CallResult}
    {c : Id × RegisteredSubscriber} (hc : c ∈ (jobStep D σ key job result).completed) :
    c ∈ σ.completed ∨ ∃ event, job.phase = .delivering event ∧ result = .fulfilled ∧
      (D.subscribersFor event.type).find? (·.name = key.2) = some c.2 ∧ c.1 = key.1 := by
  generalize hafter : jobStep D σ key job result = after at hc
  have hstep := jobStep_cases hafter
  generalize job.phase = phase at hstep ⊢
  cases hstep with
  | @deliver event s hs =>
    rcases List.mem_append.mp hc with hold | hnew
    · exact .inl hold
    · obtain rfl := List.mem_singleton.mp hnew
      exact .inr ⟨event, rfl, rfl, hs, rfl⟩
  | _ => exact .inl hc

/-- The call of the audit subscriber that a job completes. -/
theorem auditCallOfJob_of_completed {key : DeliveryKey} {job : Job} {result : CallResult}
    {c : Id × RegisteredSubscriber} (hc : c ∈ (jobStep D σ key job result).completed)
    (hname : c.2.name = auditSubscriberName) :
    c ∈ σ.completed ∨ auditCallOfJob D key job result = some (c.1, true) := by
  rcases jobStep_completed hc with hold | ⟨event, hphase, rfl, hs, hid⟩
  · exact .inl hold
  · have hkey : c.2.name = key.2 := by
      simpa using List.find?_some hs
    right
    simp only [auditCallOfJob, hphase]
    rw [if_pos (hkey.symm.trans hname), hs, hid]
    rfl

/-- A call of the audit subscriber completes with a step that has committed its entry. -/
theorem completed_of_next {l : Label} (hn : DeliverySystem.next D σ l = some τ)
    {c : Id × RegisteredSubscriber} (hc : c ∈ τ.completed)
    (hname : c.2.name = auditSubscriberName) :
    c ∈ σ.completed ∨ σ.auditCall D l = some (c.1, true) := by
  rcases next_cases hn with ⟨id, event, now, -, -, rfl⟩ | ⟨n, a, ρ, p, rfl, hstep, rfl⟩ |
    ⟨key, result, job, rfl, hjob, rfl⟩ | ⟨key, again, job, -, -, -, rfl⟩ |
    ⟨i, result, key, job, rfl, hjob, -, rfl⟩ | ⟨i, a, ρ, o, -, hstep, rfl⟩
  · exact .inl hc
  · rcases hstep.completed_cases hc with hold | ⟨i, event, results, rows, hp, rfl, hi⟩
    · exact .inl hold
    · right
      simp [auditCall, hp, hi, hname, Option.filter]
  · simp only [auditCall, hjob, Option.bind_some]
    exact auditCallOfJob_of_completed hc hname
  · exact .inl hc
  · simp only [auditCall, hjob, Option.bind_some]
    exact auditCallOfJob_of_completed hc hname
  · rw [hstep.completed_eq] at hc
    exact .inl hc

end DeliverySystem

namespace AuditedSystem

variable {idText : Id → JsString} {jsonb : JsonData → JsonData} {sha256 : List Char → JsString}
  {D : Dispatcher} {σ τ : AuditedSystem}

/-! ## Runs -/

/-- The step loses failures that a poller was to record. -/
def LosesFailures (σ : AuditedSystem) : AuditedLabel → Prop
  | .delivery label _ => σ.delivery.LosesFailures label
  | _ => False

/-- The delivery owes nothing that it does not record, and the completed calls of the audit
subscriber have made their entries. -/
structure Complete (D : Dispatcher) (σ : AuditedSystem) : Prop where
  pollers : ∀ i, DeliverySystem.PollerSound D σ.delivery (σ.delivery.pollers i)
  settled : DeliverySystem.DispatchedSettled D σ.delivery
  recovered : σ.delivery.RecoveredCompleted
  recorded : ∀ c ∈ σ.delivery.completed, c.2.name = auditSubscriberName → c.1 ∈ σ.subjects

theorem Complete.initial (administration : Administration) :
    Complete D (initial administration) where
  pollers _ := ⟨fun _ h => absurd h List.not_mem_nil, trivial⟩
  settled _ _ hrow := absurd hrow (by simp [AuditedSystem.initial, DeliverySystem.initial])
  recovered := ⟨by simp [AuditedSystem.initial, DeliverySystem.initial],
    by simp [AuditedSystem.initial, DeliverySystem.initial],
    by simp [AuditedSystem.initial, DeliverySystem.initial]⟩
  recorded _ h := absurd h List.not_mem_nil

/-- **A step of the delivery** keeps the log complete, if it loses no failure and a call of the
subscriber that has succeeded is in the log afterwards. -/
theorem Complete.delivered (h : Complete D σ) {l : DeliverySystem.Label}
    (hn : DeliverySystem.next D σ.delivery l = some τ.delivery)
    (hkept : ¬ σ.delivery.LosesFailures l) (hsubjects : σ.subjects ⊆ τ.subjects)
    (hcall : ∀ id, σ.delivery.auditCall D l = some (id, true) → id ∈ τ.subjects) :
    Complete D τ where
  pollers := DeliverySystem.next_sound hn h.pollers
  settled := DeliverySystem.dispatchedSettled_next hn h.pollers h.settled hkept
  recovered := h.recovered.next hn
  recorded c hc hname := by
    rcases DeliverySystem.completed_of_next hn hc hname with hold | hnew
    · exact hsubjects (h.recorded c hold hname)
    · exact hcall c.1 hnew

/-- The delivery sees the state and the log alone. -/
theorem Complete.of_eq (h : Complete D σ) (hdelivery : τ.delivery = σ.delivery)
    (hsubjects : τ.subjects = σ.subjects) : Complete D τ := by
  obtain ⟨hpollers, hsettled, hrecovered, hrecorded⟩ := h
  constructor
  all_goals
    rw [hdelivery]
    try rw [hsubjects]
    assumption

theorem Complete.enqueue (h : Complete D σ) {request : Option Request}
    {context : Option RequestContextData} {now : JsDate} {row : NewOutboxRow} {event : DomainEvent}
    (hn : σ.enqueue idText jsonb D request context now row event = some τ) : Complete D τ := by
  obtain ⟨delivery, hdelivery, rfl⟩ := Option.map_eq_some_iff.mp hn
  refine h.delivered hdelivery (by simp [DeliverySystem.LosesFailures]) (List.Subset.refl _) ?_
  intro id hid
  cases hid

theorem Complete.enqueueAll {request : Request} {context : Option RequestContextData}
    {now : JsDate} {rows : List (NewOutboxRow × DomainEvent)} (h : Complete D σ)
    (hn : enqueueAll idText jsonb D request context now σ rows = some τ) : Complete D τ := by
  induction rows generalizing σ with
  | nil =>
    cases hn
    exact h
  | cons r rows ih =>
    obtain ⟨ρ, hrow, hrest⟩ := Option.bind_eq_some_iff.mp hn
    exact ih (h.enqueue hrow) hrest

/-- **One step.** -/
theorem Complete.next {l : AuditedLabel} (h : Complete D σ) (hkept : ¬ σ.LosesFailures l)
    (hn : σ.next idText jsonb sha256 D l = some τ) : Complete D τ := by
  cases l with
  | command request context rows now =>
    obtain ⟨store, hstore, hrest⟩ := Option.bind_eq_some_iff.mp hn
    dsimp only at hrest
    split_ifs at hrest with hlength
    have hσ : Complete D { σ with store } := h.of_eq rfl rfl
    exact hσ.enqueueAll hrest
  | publish event context row now =>
    simp only [AuditedSystem.next] at hn
    exact h.enqueue hn
  | delivery label recording =>
    obtain ⟨delivery, hdelivery, hsettle⟩ := next_delivery hn
    rcases settleCall_cases hsettle with ⟨rfl, hcall⟩ |
      ⟨id, certain, row, call, hcall, hrow, -, rfl⟩
    · refine h.delivered hdelivery hkept (List.Subset.refl _) fun id hid => ?_
      exact absurd hid (hcall id)
    · refine h.delivered hdelivery hkept (List.subset_append_left _ _) fun id' hid => ?_
      obtain ⟨rfl, -⟩ := Prod.mk.inj (Option.some.inj (hcall.symm.trans hid))
      exact List.mem_append_right _ (List.mem_singleton_self _)

/-- An entry was made for each subject. -/
theorem Sound.exists_entry (h : Sound idText jsonb sha256 σ) {id : Id} (hid : id ∈ σ.subjects) :
    ∃ entry ∈ σ.auditLog, Records idText jsonb sha256 σ.outbox id entry := by
  obtain ⟨n, hn, rfl⟩ := List.mem_iff_getElem.mp hid
  have hlength := h.entries.length_eq
  exact ⟨σ.auditLog[n], List.getElem_mem _, h.entries.get hn (hlength ▸ hn)⟩

/-- **No event goes unrecorded**: in every run of commands, of pollers, redeliveries and
operators in which no failure is lost, an event that is dispatched has its entry in the audit
log, or a failed delivery of the audit subscriber that has not recovered, or a poller is still
to record that it has failed. -/
theorem audit_trail_complete {administration : Administration} {ls : List AuditedLabel}
    (hglobal : ∃ s ∈ D.globalSubscribers, s.name = auditSubscriberName)
    (hr : Reaches (AuditedSystem.next idText jsonb sha256 D) (fun σ l => ¬ σ.LosesFailures l)
      (initial administration) ls σ)
    {id : Id} {row : OutboxEvent} (hrow : σ.delivery.outboxEvents.lookup id = some row)
    (hdispatched : row.status = .dispatched) :
    (∃ entry ∈ σ.auditLog, Records idText jsonb sha256 σ.outbox id entry) ∨
      (∃ failed, σ.delivery.deliveries.lookup (id, auditSubscriberName) = some failed ∧
        failed.status ≠ .recovered) ∨
      ∃ i event failures recorded rows,
        σ.delivery.pollers i = .recording id event failures recorded rows ∧
          auditSubscriberName ∈ failures.map SubscriberFailure.subscriberName := by
  have hsound : Sound idText jsonb sha256 σ :=
    hr.invariant (Sound.initial administration) fun _ _ _ h _ hn => h.next hn
  have hcomplete : Complete D σ :=
    hr.invariant (Complete.initial administration) fun _ _ _ h hkept hn => h.next hkept hn
  obtain ⟨s, hs, hname⟩ := hglobal
  have hsub : s ∈ D.subscribersFor row.event.type := List.mem_append_right _ hs
  rcases hcomplete.settled id row hrow hdispatched s hsub with
    (hcompleted | ⟨failed, hfailed⟩) | ⟨i, event, failures, recorded, rows, hp, failure, hmem, heq⟩
  · exact .inl (hsound.exists_entry (hcomplete.recorded _ hcompleted hname))
  · rw [hname] at hfailed
    by_cases hrecovered : failed.status = .recovered
    · obtain ⟨s', hname', hcompleted⟩ := hcomplete.recovered.rows _ failed hfailed hrecovered
      exact .inl (hsound.exists_entry (hcomplete.recorded _ hcompleted hname'))
    · exact .inr (.inl ⟨failed, hfailed, hrecovered⟩)
  · have hnames := List.mem_map_of_mem (f := SubscriberFailure.subscriberName) hmem
    rw [heq, hname] at hnames
    exact .inr (.inr ⟨i, event, failures, recorded, rows, hp, hnames⟩)

namespace Sample

/-- The subscriber fails on an event, and is recorded to have failed. -/
def failureRecorded : List AuditedLabel :=
  [command RatelPlatform.Sample.openJanuary 1, .delivery (.poller 0 (.poll [1])) none, proceeds,
    .delivery (.poller 0 (.settle 0 (.rejected "connection refused"))) none, proceeds, proceeds,
    proceeds]

/-- Nothing dies or fails but the subscribers. -/
def withoutLoss : AuditedLabel → Bool
  | .delivery (.poller _ .crash) _ => false
  | .delivery (.poller _ .fail) _ => false
  | .delivery (.poller _ (.lose _)) _ => false
  | _ => true

theorem not_losesFailures {σ : AuditedSystem} {l : AuditedLabel} (h : withoutLoss l) :
    ¬ σ.LosesFailures l := by
  rcases l with _ | _ | ⟨_ | ⟨i, action⟩ | _ | _ | _ | _, recording⟩
  case delivery.poller =>
    cases action
    all_goals first | exact id | cases h
  all_goals exact id

end Sample

/-- The event has no entry, and a failed delivery says so. -/
theorem audit_trail_complete_sample : ∃ σ : AuditedSystem, σ.auditLog = [] ∧
    ((∃ entry ∈ σ.auditLog, Records Sample.decimal id (fun _ => []) σ.outbox 1 entry) ∨
      (∃ failed, σ.delivery.deliveries.lookup (1, auditSubscriberName) = some failed ∧
        failed.status ≠ .recovered) ∨
      ∃ i event failures recorded rows,
        σ.delivery.pollers i = .recording 1 event failures recorded rows ∧
          auditSubscriberName ∈ failures.map SubscriberFailure.subscriberName) := by
  have hrun : (runLabels (fun σ l => if Sample.withoutLoss l then
      AuditedSystem.next Sample.decimal id (fun _ => []) DeliverySystem.Sample.dispatcher σ l
        else none) (initial RatelPlatform.Sample.administration) Sample.failureRecorded).map
      (fun σ => (σ.auditLog.length, (σ.delivery.outboxEvents.lookup 1).map OutboxEvent.status)) =
      some (0, some .dispatched) := by
    decide +kernel
  obtain ⟨σ, hσ, heq⟩ := Option.map_eq_some_iff.mp hrun
  obtain ⟨hlength, hstatus⟩ := Prod.mk.inj heq
  obtain ⟨row, hrow, hdispatched⟩ := Option.map_eq_some_iff.mp hstatus
  have hr := reaches_of_checked_inv (I := fun _ => True) trivial (fun _ _ _ _ _ _ => trivial)
    (fun σ l _ => @Sample.not_losesFailures σ l) hσ
  refine ⟨σ, List.length_eq_zero_iff.mp hlength, ?_⟩
  exact audit_trail_complete ⟨_, List.mem_singleton_self _, rfl⟩ hr hrow hdispatched

end AuditedSystem

end RatelPlatform
