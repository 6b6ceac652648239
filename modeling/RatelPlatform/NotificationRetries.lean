import RatelPlatform.Notifications
import RatelPlatform.Reach

/-!
# Notifications that are sent again

An attempt of a notification job writes a log row of its own, sends the mail and notes in
the row how that went. The queue starts a job that throws up to three times, and an operator
may requeue any failed row: `RetryNotificationHandler` reads the row, and adds a new job.

The guard of the retry looks at one row. It lets a row pass whose job is still to be tried,
or which another row of the same notification has been requeued for. A second way to send a
mail twice is in the worker: its catch also catches the write that notes the mail as sent, so
the job is tried again. Nothing else sends a mail twice (`mailed_once_iff`).

A step is one step of one actor between two awaits. To which notification jobs, rows and
mails belong stands in fields that nothing reads.
-/

namespace RatelPlatform

/-! ## Rows, jobs and mails -/

/-- How far a notification is. -/
inductive NotificationStatus
  | pending
  | sent
  | failed
  deriving DecidableEq

/-- A row of `notification_logs`. -/
structure NotificationLog where
  /-- of some role of the recipient; `none` is `'unknown'` -/
  organizationId : Option Id
  recipientUserId : Id
  templateType : NotificationTemplateType
  templateData : List (String × TemplateValue)
  status : NotificationStatus
  errorMessage : Option String
  /-- no column: the notification the attempt was for -/
  notification : Id

abbrev NotificationLogs := Table Id NotificationLog

/-- Where a job stands. -/
inductive NotificationPhase
  /-- in the queue, also between two attempts -/
  | waiting
  /-- about to create its log row -/
  | logging (email : List Char) (organizationId : Option Id)
  /-- about to send -/
  | sending (email : List Char) (logId : Id)
  /-- sent: about to write that -/
  | recordingSent (logId : Id)
  /-- in the catch: about to write the error -/
  | recordingFailed (logId : Id) (error : String)
  /-- the attempt has thrown -/
  | thrown
  /-- the attempt has returned -/
  | returned
  /-- completed, or failed for good -/
  | finished
  deriving DecidableEq

/-- A job of the notification queue. -/
structure NotificationJob where
  data : RecipientResolution
  attemptsMade : ℕ
  phase : NotificationPhase
  /-- not in the queue: the notification it is for, known by its first job -/
  notification : Id
  /-- not in the queue: a mail of this job has gone out -/
  mailed : Bool

/-- `attempts` of the options every job of the queue gets. -/
def notificationAttempts : ℕ := 3

/-- A mail that went out: subject and text are made of the template and its data. -/
structure SentMail where
  email : List Char
  templateType : NotificationTemplateType
  templateData : List (String × TemplateValue)
  notification : Id

/-! ## The worker -/

/-- How a call of the mail provider ends. -/
inductive SendOutcome
  | accepted
  | refused (error : String)
  /-- the mail goes out, but the call throws -/
  | lost (error : String)

def SendOutcome.goesOut : SendOutcome → Bool
  | .refused _ => false
  | _ => true

/-- A step of the worker at one job. -/
inductive WorkerStep
  /-- starts an attempt, and reads the recipient and the organizations of its roles -/
  | start (user : Option UserRow) (organizationIds : List Id)
  /-- creates the log row, under a random id -/
  | log (logId : Id)
  | send (outcome : SendOutcome)
  /-- updates the log row -/
  | record
  /-- the read or write it is about to do throws -/
  | throw (error : String)
  /-- the queue takes the job back -/
  | leave
  /-- the worker dies; the queue notices, and lets the job wait again -/
  | crash

/-- The step is a call of the provider that sends the mail. -/
def WorkerStep.goesOut : WorkerStep → Bool
  | .send outcome => outcome.goesOut
  | _ => false

/-- What a step leaves: the rows, a mail that went out, and the job. -/
structure Worked where
  logs : NotificationLogs
  mail : Option SentMail
  job : NotificationJob

/-- `NotificationProcessor.process` up to its next await; no answer where the job is elsewhere. -/
def NotificationProcessor.process (logs : NotificationLogs) (job : NotificationJob)
    (step : WorkerStep) : Option Worked :=
  let moved : NotificationPhase → Worked := fun phase => ⟨logs, none, { job with phase }⟩
  let mailed : List Char → NotificationPhase → Worked := fun email phase =>
    ⟨logs, some ⟨email, job.data.templateType, job.data.templateData, job.notification⟩,
      { job with phase, mailed := true }⟩
  match job.phase, step with
  -- the recipient is not found: skipped
  | .waiting, .start none _ => some (moved .returned)
  | .waiting, .start (some user) organizationIds =>
    some (moved (.logging user.email.toList organizationIds.head?))
  | .waiting, .throw _ => some (moved .thrown)
  | .logging email organizationId, .log logId =>
    if logId ∈ logs then none
    else some
      { logs := logs.insert logId
          { organizationId
            recipientUserId := job.data.recipientUserId
            templateType := job.data.templateType
            templateData := job.data.templateData
            status := .pending
            errorMessage := none
            notification := job.notification }
        mail := none
        job := { job with phase := .sending email logId } }
  | .logging _ _, .throw _ => some (moved .thrown)
  | .sending email logId, .send .accepted => some (mailed email (.recordingSent logId))
  | .sending _ logId, .send (.refused error) => some (moved (.recordingFailed logId error))
  | .sending email logId, .send (.lost error) => some (mailed email (.recordingFailed logId error))
  | .recordingSent logId, .record =>
    some { moved .returned with logs := logs.update logId fun row => { row with status := .sent } }
  -- the write is inside the `try`
  | .recordingSent logId, .throw error => some (moved (.recordingFailed logId error))
  | .recordingFailed logId error, .record =>
    some { moved .thrown with logs := logs.update logId fun row =>
      { row with status := .failed, errorMessage := some error } }
  | .recordingFailed _ _, .throw _ => some (moved .thrown)
  | .thrown, .leave =>
    if notificationAttempts ≤ job.attemptsMade + 1 then some (moved .finished)
    else some ⟨logs, none, { job with phase := .waiting, attemptsMade := job.attemptsMade + 1 }⟩
  | .returned, .leave => some (moved .finished)
  | .finished, _ => none
  | _, .crash => some (moved .waiting)
  | _, _ => none

/-! ## The operators -/

/-- Why a retry is refused. -/
inductive RetryNotificationError
  | entityNotFound (notificationId : Id)
  /-- `NotificationNotFailedError` -/
  | notFailed (status : NotificationStatus)

/-- `RetryNotificationHandler.execute` before it adds the job. -/
def RetryNotificationHandler.check (logs : NotificationLogs) (notificationId organizationId : Id) :
    Except RetryNotificationError NotificationLog :=
  match logs.lookup notificationId with
  | none => .error (.entityNotFound notificationId)
  | some log =>
    if log.organizationId ≠ some organizationId then .error (.entityNotFound notificationId)
    else if log.status ≠ .failed then .error (.notFailed log.status)
    else .ok log

/-- The job a retry adds for a row. -/
def NotificationLog.toJob (log : NotificationLog) : NotificationJob where
  data := ⟨log.recipientUserId, log.templateType, log.templateData⟩
  attemptsMade := 0
  phase := .waiting
  notification := log.notification
  mailed := false

/-! ## The system -/

/-- The log, the queue, the retries that have read their row, and the mails. -/
structure NotificationSystem where
  logs : NotificationLogs
  jobs : Table Id NotificationJob
  retries : List NotificationLog
  mails : List SentMail

/-- One step of one actor. -/
inductive NotificationStep
  /-- the subscriber adds a job; the queue numbers it -/
  | enqueue (id : Id) (data : RecipientResolution)
  | worker (id : Id) (step : WorkerStep)
  /-- a retry reads its row, and ends there if that is refused -/
  | check (notificationId organizationId : Id)
  /-- the retry `k` adds its job -/
  | requeue (k : ℕ) (id : Id)
  /-- the retry `k` fails, or its process dies -/
  | drop (k : ℕ)

namespace NotificationSystem

/-- Nothing has been sent yet. -/
def empty : NotificationSystem := ⟨∅, ∅, [], []⟩

/-- A job of a number that is not taken. -/
def addJob (σ : NotificationSystem) (id : Id) (job : NotificationJob) : Option NotificationSystem :=
  if id ∈ σ.jobs then none else some { σ with jobs := σ.jobs.insert id job }

def next (σ : NotificationSystem) : NotificationStep → Option NotificationSystem
  | .enqueue id data => σ.addJob id ⟨data, 0, .waiting, id, false⟩
  | .worker id step => do
    let job ← σ.jobs.lookup id
    let worked ← NotificationProcessor.process σ.logs job step
    pure { σ with
      logs := worked.logs
      jobs := σ.jobs.insert id worked.job
      mails := σ.mails ++ worked.mail.toList }
  | .check notificationId organizationId =>
    match RetryNotificationHandler.check σ.logs notificationId organizationId with
    | .ok log => some { σ with retries := σ.retries ++ [log] }
    | .error _ => some σ
  | .requeue k id => do
    let log ← σ.retries[k]?
    let τ ← σ.addJob id log.toJob
    pure { τ with retries := σ.retries.eraseIdx k }
  | .drop k => some { σ with retries := σ.retries.eraseIdx k }

/-! ## What is asked of it -/

/-- How many mails have gone out for a notification. -/
def mailsFor (σ : NotificationSystem) (notification : Id) : ℕ :=
  σ.mails.countP fun mail => mail.notification = notification

/-- At most one mail for each notification. -/
def MailedOnce (σ : NotificationSystem) : Prop := ∀ notification, σ.mailsFor notification ≤ 1

/-- The queue may still try to send the notification. -/
def ToBeTried (σ : NotificationSystem) (notification : Id) : Prop :=
  ∃ id job, σ.jobs.lookup id = some job ∧ job.notification = notification ∧ job.phase ≠ .finished

theorem toBeTried_iff (σ : NotificationSystem) (notification : Id) :
    (∃ id ∈ σ.jobs.keys, (σ.jobs.lookup id).any fun job =>
      job.notification = notification ∧ job.phase ≠ .finished) ↔ σ.ToBeTried notification := by
  simp only [Option.any_eq_true, decide_eq_true_eq, ToBeTried]
  refine exists_congr fun id => ⟨fun h => h.2, fun h => ⟨?_, h⟩⟩
  obtain ⟨job, hjob, -⟩ := h
  exact (Table.mem_keys_iff _ _).mpr ⟨job, hjob⟩

instance (σ : NotificationSystem) (notification : Id) : Decidable (σ.ToBeTried notification) :=
  decidable_of_iff _ (σ.toBeTried_iff notification)

/-- A row is requeued while an attempt is still to come, or after one has sent the mail. -/
def RequeuesEarly (σ : NotificationSystem) : NotificationStep → Prop
  | .requeue k _ => ∃ log ∈ σ.retries[k]?,
      σ.ToBeTried log.notification ∨ 0 < σ.mailsFor log.notification
  | _ => False

/-- A job sends its mail although an earlier attempt of the same job has. -/
def MailsAgain (σ : NotificationSystem) : NotificationStep → Prop
  | .worker id step => step.goesOut ∧ ∃ job ∈ σ.jobs.lookup id, job.mailed
  | _ => False

/-- **The condition**: no row is requeued early, and no job sends its mail again. -/
def Allowed (σ : NotificationSystem) (step : NotificationStep) : Prop :=
  ¬ σ.RequeuesEarly step ∧ ¬ σ.MailsAgain step

instance (σ : NotificationSystem) : DecidablePred σ.Allowed
  | .requeue k _ => inferInstanceAs (Decidable (¬ (∃ log ∈ σ.retries[k]?,
      σ.ToBeTried log.notification ∨ 0 < σ.mailsFor log.notification) ∧ ¬ False))
  | .worker id step => inferInstanceAs (Decidable (¬ False ∧
      ¬ (step.goesOut = true ∧ ∃ job ∈ σ.jobs.lookup id, job.mailed = true)))
  | .enqueue .. | .check .. | .drop .. => inferInstanceAs (Decidable (¬ False ∧ ¬ False))

/-! ## What a step can do -/

end NotificationSystem

section

variable {logs : NotificationLogs} {job : NotificationJob} {step : WorkerStep} {worked : Worked}

/-- A finished job is not touched, and a job stays with its notification. -/
theorem NotificationProcessor.process_job
    (h : NotificationProcessor.process logs job step = some worked) :
    job.phase ≠ .finished ∧ worked.job.notification = job.notification := by
  unfold NotificationProcessor.process at h
  grind

/-- A mail goes out when the provider is called and sends it. -/
theorem NotificationProcessor.process_mail
    (h : NotificationProcessor.process logs job step = some worked) :
    (step.goesOut = false ∧ worked.mail = none ∧ worked.job.mailed = job.mailed) ∨
      (step.goesOut = true ∧ worked.job.mailed = true ∧
        ∃ mail, worked.mail = some mail ∧ mail.notification = job.notification) := by
  unfold NotificationProcessor.process at h
  grind [WorkerStep.goesOut, SendOutcome.goesOut]

/-- What a step may do to the rows. -/
inductive LogsWritten (logs : NotificationLogs) (notification : Id) : NotificationLogs → Prop
  | kept : LogsWritten logs notification logs
  | created (logId : Id) (log : NotificationLog) (hlog : log.notification = notification) :
      LogsWritten logs notification (logs.insert logId log)
  | updated (logId : Id) (f : NotificationLog → NotificationLog)
      (hf : ∀ log, (f log).notification = log.notification) :
      LogsWritten logs notification (Table.update logs logId f)

theorem NotificationProcessor.process_logs
    (h : NotificationProcessor.process logs job step = some worked) :
    LogsWritten logs job.notification worked.logs := by
  simp only [NotificationProcessor.process] at h
  split at h
  case h_4 =>
    split_ifs at h
    exact Option.some.inj h ▸ .created _ _ rfl
  case h_9 => exact Option.some.inj h ▸ .updated _ _ fun _ => rfl
  case h_11 => exact Option.some.inj h ▸ .updated _ _ fun _ => rfl
  case h_13 =>
    split_ifs at h
    · exact Option.some.inj h ▸ .kept
    · exact Option.some.inj h ▸ .kept
  all_goals first | exact Option.some.inj h ▸ .kept | cases h

/-- A row there is then was there with the same notification, or is of the job. -/
theorem LogsWritten.notification {notification : Id} {logs' : NotificationLogs}
    (h : LogsWritten logs notification logs') {logId : Id} {log' : NotificationLog}
    (hlog' : logs'.lookup logId = some log') :
    log'.notification = notification ∨
      ∃ log, logs.lookup logId = some log ∧ log.notification = log'.notification := by
  cases h with
  | kept => exact .inr ⟨log', hlog', rfl⟩
  | created id log hlog =>
    obtain ⟨-, rfl⟩ | ⟨-, hlog'⟩ := Table.lookup_insert_cases hlog'
    · exact .inl hlog
    · exact .inr ⟨log', hlog', rfl⟩
  | updated id f hf =>
    rw [Table.lookup_update] at hlog'
    split_ifs at hlog' with hid
    · obtain ⟨log, hlog, rfl⟩ := Option.map_eq_some_iff.mp hlog'
      exact .inr ⟨log, hid ▸ hlog, (hf log).symm⟩
    · exact .inr ⟨log', hlog', rfl⟩

end

namespace NotificationSystem

/-- What each step leaves. -/
inductive Steps (σ : NotificationSystem) : NotificationStep → NotificationSystem → Prop
  /-- a job is added: of a new notification, or of that of a row to be retried -/
  | adds {step : NotificationStep} {id : Id} {job : NotificationJob}
      {retries : List NotificationLog} (hid : id ∉ σ.jobs) (hmailed : job.mailed = false)
      (hretries : retries ⊆ σ.retries)
      (hof : job.notification = id ∨ ∃ k log, step = .requeue k id ∧ σ.retries[k]? = some log ∧
        job.notification = log.notification) :
      Steps σ step { σ with jobs := σ.jobs.insert id job, retries }
  | works {id : Id} {step : WorkerStep} {job : NotificationJob} {worked : Worked}
      (hjob : σ.jobs.lookup id = some job)
      (hworked : NotificationProcessor.process σ.logs job step = some worked) :
      Steps σ (.worker id step)
        { σ with
          logs := worked.logs
          jobs := σ.jobs.insert id worked.job
          mails := σ.mails ++ worked.mail.toList }
  /-- a retry has read its row -/
  | reads {id organizationId : Id} {log : NotificationLog} (hlog : σ.logs.lookup id = some log) :
      Steps σ (.check id organizationId) { σ with retries := σ.retries ++ [log] }
  /-- retries end, or nothing happens -/
  | drops {step : NotificationStep} {retries : List NotificationLog}
      (hretries : retries ⊆ σ.retries) :
      Steps σ step { σ with retries }

variable {σ τ : NotificationSystem} {step : NotificationStep}

/-- **What a step can do.** -/
theorem steps_of_next (h : σ.next step = some τ) : σ.Steps step τ := by
  cases step with
  | enqueue id data =>
    simp only [next, addJob] at h
    split_ifs at h with hid
    obtain rfl := Option.some.inj h
    exact .adds hid rfl (List.Subset.refl _) (.inl rfl)
  | worker id step =>
    obtain ⟨job, hjob, h⟩ := Option.bind_eq_some_iff.mp h
    obtain ⟨worked, hworked, h⟩ := Option.bind_eq_some_iff.mp h
    obtain rfl := Option.some.inj h
    exact .works hjob hworked
  | check id organizationId =>
    simp only [next, RetryNotificationHandler.check] at h
    rcases hlog : σ.logs.lookup id with _ | log
    · simp only [hlog, Option.some.injEq] at h
      exact h ▸ .drops (List.Subset.refl _)
    · simp only [hlog] at h
      split_ifs at h
      · exact Option.some.inj h ▸ .drops (List.Subset.refl _)
      · exact Option.some.inj h ▸ .drops (List.Subset.refl _)
      · exact Option.some.inj h ▸ .reads hlog
  | requeue k id =>
    obtain ⟨log, hlog, h⟩ := Option.bind_eq_some_iff.mp h
    obtain ⟨υ, hadded, h⟩ := Option.bind_eq_some_iff.mp h
    simp only [addJob] at hadded
    split_ifs at hadded with hid
    obtain rfl := Option.some.inj hadded
    obtain rfl := Option.some.inj h
    exact .adds hid rfl (List.eraseIdx_subset) (.inr ⟨k, log, rfl, hlog, rfl⟩)
  | drop k =>
    obtain rfl := Option.some.inj h
    exact .drops (List.eraseIdx_subset)

/-- A worker's step sends one mail or none. -/
theorem mailsFor_append (σ : NotificationSystem) (mail : Option SentMail) (notification : Id) :
    mailsFor { σ with mails := σ.mails ++ mail.toList } notification =
      σ.mailsFor notification + mail.toList.countP fun mail => mail.notification = notification :=
  List.countP_append

/-! ## Every run -/

/-- Everything belongs to the notification of some job, and a job that has sent a mail has
left one. -/
structure Known (σ : NotificationSystem) : Prop where
  job : ∀ {id job}, σ.jobs.lookup id = some job → job.notification ∈ σ.jobs
  log : ∀ {id log}, σ.logs.lookup id = some log → log.notification ∈ σ.jobs
  retry : ∀ {log}, log ∈ σ.retries → log.notification ∈ σ.jobs
  mail : ∀ {mail}, mail ∈ σ.mails → mail.notification ∈ σ.jobs
  mailed : ∀ {id job}, σ.jobs.lookup id = some job → job.mailed → 0 < σ.mailsFor job.notification

theorem known_empty : Known empty :=
  ⟨nofun, nofun, nofun, nofun, nofun⟩

theorem Known.next (h : Known σ) (hn : σ.next step = some τ) : Known τ := by
  -- no job is ever lost
  have hkeep : ∀ {id : Id} {job : NotificationJob} {n : Id}, n ∈ σ.jobs →
      n ∈ σ.jobs.insert id job := fun hn => Finmap.mem_insert.mpr (.inr hn)
  cases steps_of_next hn with
  | @adds _ id job retries hid hmailed hretries hof =>
    have hknown : job.notification ∈ σ.jobs.insert id job := by
      rcases hof with hof | ⟨k, log, -, hlog, hof⟩
      · exact Finmap.mem_insert.mpr (.inl hof)
      · exact hkeep (hof ▸ h.retry (List.mem_of_getElem? hlog))
    refine ⟨?_, fun hlog => hkeep (h.log hlog), fun hlog => hkeep (h.retry (hretries hlog)),
      fun hmail => hkeep (h.mail hmail), ?_⟩
    · intro id' job' hjob'
      obtain ⟨-, rfl⟩ | ⟨-, hjob'⟩ := Table.lookup_insert_cases hjob'
      · exact hknown
      · exact hkeep (h.job hjob')
    · intro id' job' hjob' hsent
      obtain ⟨-, rfl⟩ | ⟨-, hjob'⟩ := Table.lookup_insert_cases hjob'
      · rw [hmailed] at hsent
        cases hsent
      · exact h.mailed hjob' hsent
  | @works id step job worked hjob hworked =>
    obtain ⟨hlive, hof⟩ := NotificationProcessor.process_job hworked
    have hmails := NotificationProcessor.process_mail hworked
    refine ⟨?_, fun hlog => ?_, fun hlog => hkeep (h.retry hlog), @fun sent hmail => ?_, ?_⟩
    · intro id' job' hjob'
      obtain ⟨-, rfl⟩ | ⟨-, hjob'⟩ := Table.lookup_insert_cases hjob'
      · exact hkeep (hof ▸ h.job hjob)
      · exact hkeep (h.job hjob')
    · rcases (NotificationProcessor.process_logs hworked).notification hlog with
        hnew | ⟨log, hlog, hold⟩
      · exact hkeep (hnew ▸ h.job hjob)
      · exact hkeep (hold ▸ h.log hlog)
    · rcases List.mem_append.mp hmail with hmail | hmail
      · exact hkeep (h.mail hmail)
      · rcases hmails with ⟨-, hnone, -⟩ | ⟨-, -, mail, hsent, hmailof⟩
        · simp [hnone] at hmail
        · have hnew : sent = mail := by simpa [hsent, eq_comm] using hmail
          exact hkeep (hnew ▸ hmailof ▸ h.job hjob)
    · intro id' job' hjob' hsent
      refine Nat.lt_of_lt_of_eq ?_ (mailsFor_append σ worked.mail _).symm
      obtain ⟨-, rfl⟩ | ⟨-, hjob'⟩ := Table.lookup_insert_cases hjob'
      · rcases hmails with ⟨-, -, hsame⟩ | ⟨-, -, mail, hmail, hmailof⟩
        · rw [hof]
          exact Nat.add_pos_left (h.mailed hjob (hsame ▸ hsent)) _
        · simp [hmail, hmailof, hof]
      · exact Nat.add_pos_left (h.mailed hjob' hsent) _
  | reads hlog =>
    refine ⟨h.job, h.log, fun hmem => ?_, h.mail, h.mailed⟩
    rcases List.mem_append.mp hmem with hmem | hmem
    · exact h.retry hmem
    · rw [List.mem_singleton.mp hmem]
      exact h.log hlog
  | drops hretries => exact ⟨h.job, h.log, fun hmem => h.retry (hretries hmem), h.mail, h.mailed⟩

/-! ## Runs of allowed steps -/

/-- One job at a time may send the mail of a notification, and once it has been sent that
job is the one that did. -/
structure OneSender (σ : NotificationSystem) : Prop where
  once : σ.MailedOnce
  one : ∀ {id id' job job'}, σ.jobs.lookup id = some job → σ.jobs.lookup id' = some job' →
    job.phase ≠ .finished → job'.phase ≠ .finished → job.notification = job'.notification → id = id'
  sender : ∀ {id job}, σ.jobs.lookup id = some job → job.phase ≠ .finished →
    0 < σ.mailsFor job.notification → job.mailed

theorem oneSender_empty : OneSender empty :=
  ⟨fun _ => Nat.zero_le 1, nofun, nofun⟩

/-- Nothing has been sent for a notification nobody knows of, and nothing is tried. -/
theorem Known.unknown (h : Known σ) {notification : Id} (hnot : notification ∉ σ.jobs) :
    ¬ σ.ToBeTried notification ∧ ¬ 0 < σ.mailsFor notification := by
  refine ⟨?_, ?_⟩
  · rintro ⟨id, job, hjob, rfl, -⟩
    exact hnot (h.job hjob)
  · intro hsent
    obtain ⟨mail, hmail, hof⟩ := List.countP_pos_iff.mp hsent
    exact hnot (of_decide_eq_true hof ▸ h.mail hmail)

theorem OneSender.next (h : OneSender σ) (hknown : Known σ) (hok : σ.Allowed step)
    (hn : σ.next step = some τ) : OneSender τ := by
  cases steps_of_next hn with
  | @adds _ id job retries hid hmailed hretries hof =>
    -- neither a new notification nor one retried in turn has a sender
    have hnobody : ¬ σ.ToBeTried job.notification ∧ ¬ 0 < σ.mailsFor job.notification := by
      rcases hof with hof | ⟨k, log, rfl, hlog, hof⟩
      · exact hof ▸ hknown.unknown (hof ▸ hid)
      · rw [hof]
        refine ⟨?_, ?_⟩
        · exact fun htried => hok.1 ⟨log, hlog, .inl htried⟩
        · exact fun hsent => hok.1 ⟨log, hlog, .inr hsent⟩
    refine ⟨h.once, ?_, ?_⟩
    · intro id₁ id₂ job₁ job₂ hjob₁ hjob₂ hlive₁ hlive₂ hsame
      obtain ⟨hid₁, rfl⟩ | ⟨-, hjob₁⟩ := Table.lookup_insert_cases hjob₁ <;>
        obtain ⟨hid₂, rfl⟩ | ⟨-, hjob₂⟩ := Table.lookup_insert_cases hjob₂
      · rw [hid₁, hid₂]
      · exact absurd ⟨id₂, job₂, hjob₂, hsame.symm, hlive₂⟩ hnobody.1
      · exact absurd ⟨id₁, job₁, hjob₁, hsame, hlive₁⟩ hnobody.1
      · exact h.one hjob₁ hjob₂ hlive₁ hlive₂ hsame
    · intro id' job' hjob' hlive' hsent
      obtain ⟨-, rfl⟩ | ⟨-, hjob'⟩ := Table.lookup_insert_cases hjob'
      · exact absurd hsent hnobody.2
      · exact h.sender hjob' hlive' hsent
  | @works id step job worked hjob hworked =>
    obtain ⟨hlive, hof⟩ := NotificationProcessor.process_job hworked
    have hmails := NotificationProcessor.process_mail hworked
    have hcount := mailsFor_append σ worked.mail
    refine ⟨?_, ?_, ?_⟩
    · intro notification
      refine (hcount notification).trans_le ?_
      rcases hmails with ⟨-, hnone, -⟩ | ⟨hout, -, mail, hmail, hmailof⟩
      · simpa [hnone] using h.once notification
      · by_cases hsame : job.notification = notification
        · -- the job has not sent it before, so nobody has
          subst hsame
          have hnot : ¬ 0 < σ.mailsFor job.notification := fun hsent =>
            hok.2 ⟨hout, job, hjob, h.sender hjob hlive hsent⟩
          simp [hmail, hmailof]
          omega
        · simpa [hmail, hmailof, hsame] using h.once notification
    · intro id₁ id₂ job₁ job₂ hjob₁ hjob₂ hlive₁ hlive₂ hsame
      obtain ⟨hid₁, rfl⟩ | ⟨-, hjob₁⟩ := Table.lookup_insert_cases hjob₁ <;>
        obtain ⟨hid₂, rfl⟩ | ⟨-, hjob₂⟩ := Table.lookup_insert_cases hjob₂
      · rw [hid₁, hid₂]
      · exact hid₁.trans (h.one hjob hjob₂ hlive hlive₂ (hof.symm.trans hsame))
      · exact (h.one hjob₁ hjob hlive₁ hlive (hsame.trans hof)).trans hid₂.symm
      · exact h.one hjob₁ hjob₂ hlive₁ hlive₂ hsame
    · intro id' job' hjob' hlive' hsent
      replace hsent := Nat.lt_of_lt_of_eq hsent (hcount _)
      obtain ⟨-, rfl⟩ | ⟨hid', hjob'⟩ := Table.lookup_insert_cases hjob'
      · rcases hmails with ⟨-, hnone, hsame⟩ | ⟨-, hmailed, -⟩
        · rw [hsame]
          exact h.sender hjob hlive (by simpa [hnone, hof] using hsent)
        · exact hmailed
      · -- another job: the mail was not for its notification
        refine h.sender hjob' hlive' ?_
        have hother : job'.notification ≠ job.notification := fun hsame =>
          hid' (h.one hjob' hjob hlive' hlive hsame)
        rcases hmails with ⟨-, hnone, -⟩ | ⟨-, -, mail, hmail, hmailof⟩
        · simpa [hnone] using hsent
        · simpa [hmail, hmailof, hother.symm] using hsent
  | reads hlog => exact ⟨h.once, h.one, h.sender⟩
  | drops hretries => exact ⟨h.once, h.one, h.sender⟩

/-- Where a mail is sent again. -/
theorem MailsAgain.works (hagain : σ.MailsAgain step) (hn : σ.next step = some τ) :
    ∃ id work job worked, σ.jobs.lookup id = some job ∧ job.mailed ∧ work.goesOut ∧
      NotificationProcessor.process σ.logs job work = some worked ∧
      τ.mails = σ.mails ++ worked.mail.toList := by
  rcases step with _ | ⟨id, work⟩ | _ | _ | _
  case worker =>
    obtain ⟨hout, job, hjob, hsent⟩ := hagain
    obtain ⟨job', hjob', hn⟩ := Option.bind_eq_some_iff.mp hn
    obtain rfl := Option.some.inj (hjob.symm.trans hjob')
    obtain ⟨worked, hworked, hn⟩ := Option.bind_eq_some_iff.mp hn
    obtain rfl := Option.some.inj hn
    exact ⟨id, work, job, worked, hjob, hsent, hout, hworked, rfl⟩
  all_goals exact hagain.elim

/-- A job that sends its mail again sends its notification a second one. -/
theorem Known.not_mailedOnce (h : Known σ) (hagain : σ.MailsAgain step)
    (hn : σ.next step = some τ) : ¬ MailedOnce τ := by
  obtain ⟨id, work, job, worked, hjob, hsent, hout, hworked, hmails⟩ := hagain.works hn
  intro honce
  have hbefore := h.mailed hjob hsent
  have hafter := honce job.notification
  rcases NotificationProcessor.process_mail hworked with ⟨hnot, -⟩ | ⟨-, -, mail, hmail, hmailof⟩
  · rw [hnot] at hout
    cases hout
  · have hmore : τ.mailsFor job.notification = σ.mailsFor job.notification + 1 := by
      simp [mailsFor, hmails, hmail, hmailof]
    omega

/-- **When at most one mail is sent**, and no row is requeued early, for every notification and
in every interleaving. -/
theorem mailed_once_iff {steps : List NotificationStep}
    (hr : Reaches NotificationSystem.next (fun _ _ => True) empty steps σ) :
    (Throughout NotificationSystem.next empty steps MailedOnce ∧
        ¬ Happened NotificationSystem.next empty steps fun σ step _ => σ.RequeuesEarly step) ↔
      Reaches NotificationSystem.next Allowed empty steps σ := by
  have hknown : ∀ {steps σ}, Reaches NotificationSystem.next (fun _ _ => True) empty steps σ →
      Known σ := fun hr => hr.invariant known_empty fun _ _ _ h _ hn => h.next hn
  refine ⟨?_, ?_⟩
  · rintro ⟨honce, hearly⟩
    induction hr with
    | nil => exact .nil
    | snoc hr _ hn ih =>
      rw [happened_snoc_iff hr hn, not_or] at hearly
      have hafter := honce _ _ (List.prefix_refl _) (hr.snoc trivial hn)
      refine .snoc (ih (fun before t hprefix => honce before t ?_) hearly.1) ⟨hearly.2, ?_⟩ hn
      · exact hprefix.trans (List.prefix_append _ _)
      · exact fun hagain => (hknown hr).not_mailedOnce hagain hn hafter
  · intro hok
    refine ⟨hok.throughout fun steps u hr => ?_, hok.not_happened fun _ _ _ hok => hok.1⟩
    have hsender : Known u ∧ OneSender u :=
      hr.invariant (P := fun σ => Known σ ∧ OneSender σ) ⟨known_empty, oneSender_empty⟩
        fun _ _ _ h hok hn => ⟨h.1.next hn, h.2.next h.1 hok hn⟩
    exact hsender.2.once

/-! ## Without mishaps -/

/-- The call of the provider sends the mail and throws, or the write that is to note the mail
as sent throws, or the worker dies before the queue has taken back a job that sent its mail. -/
def Mishap (σ : NotificationSystem) : NotificationStep → Prop
  | .worker _ (.send (.lost _)) => True
  | .worker id (.throw _) => ∃ job logId, σ.jobs.lookup id = some job ∧
      job.phase = .recordingSent logId
  | .worker id .crash => ∃ job, σ.jobs.lookup id = some job ∧ job.mailed
  | _ => False

/-- A job that has sent its mail will not send again. -/
def SentOnce (σ : NotificationSystem) : Prop :=
  ∀ id job, σ.jobs.lookup id = some job → job.mailed →
    (∃ logId, job.phase = .recordingSent logId) ∨ job.phase = .returned ∨ job.phase = .finished

theorem SentOnce.next (h : SentOnce σ) (hok : ¬ σ.Mishap step) (hn : σ.next step = some τ) :
    SentOnce τ := by
  intro id' job' hjob' hsent
  cases steps_of_next hn with
  | @adds _ id job _ _ hmailed _ _ =>
    obtain ⟨-, rfl⟩ | ⟨-, hjob'⟩ := Table.lookup_insert_cases hjob'
    · rw [hmailed] at hsent
      cases hsent
    · exact h id' job' hjob' hsent
  | @works id step job worked hjob hworked =>
    obtain ⟨-, rfl⟩ | ⟨-, hjob'⟩ := Table.lookup_insert_cases hjob'
    · have hbefore := h id job hjob
      unfold NotificationProcessor.process at hworked
      unfold Mishap at hok
      grind
    · exact h id' job' hjob' hsent
  | reads => exact h id' job' hjob' hsent
  | drops => exact h id' job' hjob' hsent

theorem SentOnce.not_mailsAgain (h : SentOnce σ) (hn : σ.next step = some τ) :
    ¬ σ.MailsAgain step := by
  intro hagain
  obtain ⟨id, work, job, worked, hjob, hsent, hout, hworked, -⟩ := hagain.works hn
  have hphase := h id job hjob hsent
  unfold NotificationProcessor.process at hworked
  grind [WorkerStep.goesOut]

/-- Without mishaps it is the operators alone: one mail at most while no row is requeued
early. -/
theorem mailedOnce_of_in_turn {steps : List NotificationStep}
    (hr : Reaches NotificationSystem.next (fun σ step => ¬ σ.RequeuesEarly step ∧ ¬ σ.Mishap step)
      empty steps σ) : σ.MailedOnce := by
  have hsender : Known σ ∧ OneSender σ ∧ SentOnce σ := by
    refine hr.invariant (P := fun σ => Known σ ∧ OneSender σ ∧ SentOnce σ)
      ⟨known_empty, oneSender_empty, nofun⟩ fun σ step τ h hok hn => ?_
    obtain ⟨hknown, hone, honce⟩ := h
    exact ⟨hknown.next hn, hone.next hknown ⟨hok.1, honce.not_mailsAgain hn⟩ hn,
      honce.next hok.2 hn⟩
  exact hsender.2.1.once

end NotificationSystem

namespace Sample

open NotificationSystem

/-- One attempt of a job up to the call of the provider. -/
def attemptUpTo (id logId : Id) (outcome : SendOutcome) : List NotificationStep :=
  [.worker id (.start (some ⟨7, "ada@ratel", "argon2:lovelace"⟩) [1]), .worker id (.log logId),
    .worker id (.send outcome)]

/-- The first attempt fails, its row is requeued before the second attempt, and both send. -/
def requeuedInBetween : List NotificationStep :=
  .enqueue 1 ⟨7, .expenseApproved, []⟩ :: attemptUpTo 1 100 (.refused "ECONNREFUSED") ++
    [.worker 1 .record, .worker 1 .leave, .check 100 1, .requeue 0 2] ++
    attemptUpTo 1 101 .accepted ++ attemptUpTo 2 102 .accepted

/-- The same, but all three attempts fail before the row of the first is requeued. -/
def requeuedInTurn : List NotificationStep :=
  .enqueue 1 ⟨7, .expenseApproved, []⟩ ::
    ([100, 101, 102].flatMap fun logId => attemptUpTo 1 logId (.refused "ECONNREFUSED") ++
      [.worker 1 .record, .worker 1 .leave]) ++
    [.check 100 1, .requeue 0 2] ++ attemptUpTo 2 103 .accepted

end Sample

namespace NotificationSystem

theorem mailed_once_iff_sample :
    Throughout NotificationSystem.next empty Sample.requeuedInTurn MailedOnce ∧
      ¬ Happened NotificationSystem.next empty Sample.requeuedInTurn
        fun σ step _ => σ.RequeuesEarly step := by
  have hcheck : ∀ (σ : NotificationSystem) step, decide (σ.Allowed step) = true →
      σ.Allowed step := fun _ _ => of_decide_eq_true
  obtain ⟨σ, hr⟩ : ∃ σ, Reaches NotificationSystem.next Allowed empty Sample.requeuedInTurn σ :=
    exists_reaches_of_checked hcheck (by decide +kernel)
  exact (mailed_once_iff (hr.mono fun _ _ _ => trivial)).mpr hr

/-- **A mail sent twice**: the retry does not see that its job is still to be tried. -/
theorem requeued_before_second_attempt : ¬ ∀ (steps : List NotificationStep)
    (σ : NotificationSystem), Reaches NotificationSystem.next (fun _ _ => True) empty steps σ →
    (∀ id, .worker id .crash ∉ steps) →
    Throughout NotificationSystem.next empty steps MailedOnce ∧
      ¬ Happened NotificationSystem.next empty steps fun σ step _ => σ.RequeuesEarly step := by
  intro hall
  have htwo : (runLabels NotificationSystem.next empty Sample.requeuedInBetween).map
      (mailsFor · 1) = some 2 := by decide +kernel
  obtain ⟨σ, hσ, hmails⟩ := Option.map_eq_some_iff.mp htwo
  have hr := reaches_of_runLabels hσ
  have honce := (hall _ σ hr (by simp [Sample.requeuedInBetween, Sample.attemptUpTo])).1 _ σ
    (List.prefix_refl _) hr 1
  omega

end NotificationSystem

end RatelPlatform
