import Mathlib.Data.Finset.Basic
import Mathlib.Logic.Function.Basic
import RatelPlatform.IdempotencyKeys
import RatelPlatform.Json
import RatelPlatform.Reach
import RatelPlatform.Table

/-!
# The idempotency store

A guarded request claims its key with `SET … NX`. Whoever gets the claim runs the
handler and then stores the response over the claim, or deletes it if the handler
failed; neither write is waited for. Whoever does not get it reads what is there.

The claim is the bare text `IN_PROGRESS` and has a time to live, as the response has.
When a time runs out is a label of its own, and so is a request that stops: its
process dies, or its call to Redis fails. On whose behalf an entry was written stands
in `writer`, and which stored responses have time left in `unexpired`: nothing reads
them.
-/

namespace RatelPlatform

/-- `CachedResponse`, as it is read back from its JSON text. -/
structure CachedResponse where
  status : ℕ
  body : Option Json

/-- What is stored under a key. -/
inductive StoredValue
  /-- the text `IN_PROGRESS` -/
  | inProgress
  /-- the text of a response, which is the text of an object -/
  | response (r : CachedResponse)

/-- An entry, with the request on whose behalf it was written. -/
structure RedisEntry where
  value : StoredValue
  writer : ℕ

/-- Where a request stands in `intercept`. -/
inductive RequestPhase
  /-- about to claim its key -/
  | arrived
  /-- the claim is made: its handler is running -/
  | executing
  /-- the handler succeeded: the response is on its way to the store -/
  | completing (response : CachedResponse)
  /-- the handler failed: the claim is about to be deleted -/
  | releasing
  /-- the key was taken: about to read what is there -/
  | refused
  /-- answered with a stored response -/
  | replayed (response : CachedResponse)
  /-- answered with an `IdempotencyKeyInProgressError` -/
  | conflict
  /-- nothing left to do -/
  | finished

/-- The request has claimed its key, and has not written to it again. -/
def RequestPhase.isActive : RequestPhase → Bool
  | executing | completing _ | releasing => true
  | _ => false

/-- What can happen. -/
inductive StoreEvent
  /-- `claim` of a request -/
  | claim (i : ℕ)
  /-- its handler returns this body, or throws -/
  | settle (i : ℕ) (body : Option (Option Json))
  /-- its `complete` or `release` reaches the store -/
  | land (i : ℕ)
  /-- its `read` -/
  | read (i : ℕ)
  /-- its process dies, or its call fails -/
  | stop (i : ℕ)
  /-- the time of an entry runs out -/
  | expire (key : JsString)
  /-- the time of a stored response that is no longer there runs out -/
  | lapse (i : ℕ)

/-- Redis, and the requests. -/
structure IdempotencyStore where
  redis : Table JsString RedisEntry
  phase : ℕ → RequestPhase
  /-- the requests whose stored response has time left -/
  unexpired : Finset ℕ

namespace IdempotencyStore

variable (request : ℕ → KeyedRequest)

/-- The key of a request. -/
abbrev key (i : ℕ) : JsString := (request i).buildRedisKey

/-- Nothing stored, nobody answered. -/
def initial : IdempotencyStore where
  redis := ∅
  phase := fun _ => .arrived
  unexpired := ∅

/-- The request goes on to another phase. -/
def goto (σ : IdempotencyStore) (i : ℕ) (phase : RequestPhase) : IdempotencyStore :=
  { σ with phase := Function.update σ.phase i phase }

/-- Where a request goes when its handler has settled. -/
def settled (i : ℕ) : Option (Option Json) → RequestPhase
  | some body => .completing ⟨(request i).statusCode, body⟩
  | none => .releasing

/-- Where a request goes that reads this entry. -/
def answer : Option RedisEntry → RequestPhase
  | some ⟨.response r, _⟩ => .replayed r
  -- the claim of another request, or nothing any more
  | _ => .conflict

/-- The responses with time left when an entry expires. -/
def expired (unexpired : Finset ℕ) (e : RedisEntry) : Finset ℕ :=
  match e.value with
  | .response _ => unexpired.erase e.writer
  | .inProgress => unexpired

/-- The response of the request is the one that is stored. -/
def isStored (σ : IdempotencyStore) (i : ℕ) : Bool :=
  match σ.redis.lookup (key request i) with
  | some ⟨.response _, writer⟩ => decide (writer = i)
  | _ => false

/-- The store after an event, if it can happen. -/
def next (σ : IdempotencyStore) : StoreEvent → Option IdempotencyStore
  | .claim i =>
    match σ.phase i, σ.redis.lookup (key request i) with
    | .arrived, none => some
      { σ.goto i .executing with redis := σ.redis.insert (key request i) ⟨.inProgress, i⟩ }
    | .arrived, some _ => some (σ.goto i .refused)
    | _, _ => none
  | .settle i body =>
    match σ.phase i with
    | .executing => some (σ.goto i (settled request i body))
    | _ => none
  | .land i =>
    match σ.phase i with
    | .completing r => some
      { σ.goto i .finished with
        redis := σ.redis.insert (key request i) ⟨.response r, i⟩
        unexpired := insert i σ.unexpired }
    | .releasing => some
      { σ.goto i .finished with redis := σ.redis.erase (key request i) }
    | _ => none
  | .read i =>
    match σ.phase i with
    | .refused => some (σ.goto i (answer (σ.redis.lookup (key request i))))
    | _ => none
  | .stop i => some (σ.goto i .finished)
  | .expire k =>
    match σ.redis.lookup k with
    | some e => some { σ with redis := σ.redis.erase k, unexpired := expired σ.unexpired e }
    | none => none
  | .lapse i =>
    if i ∈ σ.unexpired ∧ isStored request σ i = false then
      some { σ with unexpired := σ.unexpired.erase i }
    else none

/-- What a step does. -/
inductive Step (σ : IdempotencyStore) : StoreEvent → IdempotencyStore → Prop
  /-- the key is free -/
  | claimed {i : ℕ} (hphase : σ.phase i = .arrived)
      (hfree : σ.redis.lookup (key request i) = none) :
    Step σ (.claim i)
      { σ.goto i .executing with redis := σ.redis.insert (key request i) ⟨.inProgress, i⟩ }
  /-- the key is taken -/
  | taken {i : ℕ} {e : RedisEntry} (hphase : σ.phase i = .arrived)
      (htaken : σ.redis.lookup (key request i) = some e) :
    Step σ (.claim i) (σ.goto i .refused)
  | settle {i : ℕ} (body : Option (Option Json)) (hphase : σ.phase i = .executing) :
    Step σ (.settle i body) (σ.goto i (settled request i body))
  /-- `SET key response` -/
  | complete {i : ℕ} {r : CachedResponse} (hphase : σ.phase i = .completing r) :
    Step σ (.land i)
      { σ.goto i .finished with
        redis := σ.redis.insert (key request i) ⟨.response r, i⟩
        unexpired := insert i σ.unexpired }
  /-- `DEL key` -/
  | release {i : ℕ} (hphase : σ.phase i = .releasing) :
    Step σ (.land i) { σ.goto i .finished with redis := σ.redis.erase (key request i) }
  | read {i : ℕ} (hphase : σ.phase i = .refused) :
    Step σ (.read i) (σ.goto i (answer (σ.redis.lookup (key request i))))
  | stop (i : ℕ) : Step σ (.stop i) (σ.goto i .finished)
  | expire {k : JsString} {e : RedisEntry} (hstored : σ.redis.lookup k = some e) :
    Step σ (.expire k)
      { σ with redis := σ.redis.erase k, unexpired := expired σ.unexpired e }
  | lapse {i : ℕ} (hgone : isStored request σ i = false) :
    Step σ (.lapse i) { σ with unexpired := σ.unexpired.erase i }

variable {request : ℕ → KeyedRequest} {σ τ : IdempotencyStore} {l : StoreEvent} {i j : ℕ}

/-- Every step is one of these. -/
theorem step_of_next (h : next request σ l = some τ) : Step request σ l τ := by
  cases l with
  | claim i =>
    simp only [next] at h
    rcases hphase : σ.phase i with _ | _ | _ | _ | _ | _ | _ | _ <;>
      rcases hlookup : σ.redis.lookup (key request i) with _ | e <;>
      rw [hphase, hlookup] at h <;> cases h
    · exact .claimed hphase hlookup
    · exact .taken hphase hlookup
  | settle i body =>
    simp only [next] at h
    rcases hphase : σ.phase i with _ | _ | _ | _ | _ | _ | _ | _ <;> rw [hphase] at h <;> cases h
    exact .settle body hphase
  | land i =>
    simp only [next] at h
    rcases hphase : σ.phase i with _ | _ | r | _ | _ | _ | _ | _ <;> rw [hphase] at h <;> cases h
    · exact .complete hphase
    · exact .release hphase
  | read i =>
    simp only [next] at h
    rcases hphase : σ.phase i with _ | _ | _ | _ | _ | _ | _ | _ <;> rw [hphase] at h <;> cases h
    exact .read hphase
  | stop i =>
    cases h
    exact .stop i
  | expire k =>
    simp only [next] at h
    rcases hstored : σ.redis.lookup k with _ | e <;> rw [hstored] at h <;> cases h
    exact .expire hstored
  | lapse i =>
    simp only [next] at h
    split_ifs at h with hlapse
    cases h
    exact .lapse hlapse.2

/-! ## Small facts -/

@[simp] theorem goto_redis (phase : RequestPhase) : (σ.goto i phase).redis = σ.redis := rfl

@[simp] theorem goto_unexpired (phase : RequestPhase) :
    (σ.goto i phase).unexpired = σ.unexpired := rfl

theorem goto_phase (phase : RequestPhase) :
    (σ.goto i phase).phase j = if j = i then phase else σ.phase j :=
  Function.update_apply _ _ _ _

/-- An answer is active no more. -/
theorem isActive_answer (e : Option RedisEntry) : (answer e).isActive = false := by
  rcases e with _ | ⟨_ | r, w⟩
  · rfl
  · rfl
  · rfl

/-- A claim that expires is no response; a response that does has no time left. -/
theorem mem_expired {e : RedisEntry} (h : j ∈ expired σ.unexpired e) :
    j ∈ σ.unexpired ∧ ∀ r, e ≠ ⟨.response r, j⟩ := by
  obtain ⟨value, writer⟩ := e
  cases value with
  | inProgress => exact ⟨h, nofun⟩
  | response r =>
    obtain ⟨hne, hmem⟩ := Finset.mem_erase.mp h
    refine ⟨hmem, fun r' heq => hne ?_⟩
    cases heq
    rfl

end IdempotencyStore

end RatelPlatform
