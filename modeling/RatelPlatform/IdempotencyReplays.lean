import RatelPlatform.IdempotencyLocks

/-!
# Whose response is replayed

What is stored under a key was written by a request with that key. So a request is
answered with the response of another one exactly if their keys can be the same, and
the key does not tell two resources of one handler apart, nor two addresses that end
where the keys behind them begin.
-/

namespace RatelPlatform

/-- The two requests have one key, but are about different resources or from different
addresses: the handler is the same, and so is what stands behind it in the key. -/
def KeyedRequest.Confusable (r s : KeyedRequest) : Prop :=
  r.handler = s.handler ∧ r.SameTail s ∧ ¬ (r.params = s.params ∧ (r.user = none → r.ip = s.ip))

namespace IdempotencyStore

variable (request : ℕ → KeyedRequest)

/-- The event answers request `i` with the response stored for request `j`. -/
def Replays (i j : ℕ) (σ : IdempotencyStore) (l : StoreEvent) : Prop :=
  l = .read i ∧ σ.phase i = .refused ∧
    ∃ r, σ.redis.lookup (key request i) = some ⟨.response r, j⟩

/-- What is stored was written under its key. -/
def Written (σ : IdempotencyStore) : Prop :=
  ∀ k e, σ.redis.lookup k = some e → key request e.writer = k

variable {request} {σ τ : IdempotencyStore} {l : StoreEvent}

theorem Written.insert (h : σ.Written request) {i : ℕ} {value : StoredValue} {k : JsString}
    {e : RedisEntry} (he : (σ.redis.insert (key request i) ⟨value, i⟩).lookup k = some e) :
    key request e.writer = k := by
  obtain ⟨hk, rfl⟩ | ⟨-, he⟩ := Table.lookup_insert_cases he
  · rw [hk]
  · exact h k e he

theorem Written.erase (h : σ.Written request) {k k' : JsString} {e : RedisEntry}
    (he : (σ.redis.erase k').lookup k = some e) : key request e.writer = k := by
  rw [Table.lookup_erase_ite] at he
  split_ifs at he
  exact h k e he

theorem Written.next (h : σ.Written request) (hn : next request σ l = some τ) :
    τ.Written request := by
  cases step_of_next hn with
  | claimed hphase hfree => exact fun _ _ he => h.insert he
  | complete hphase => exact fun _ _ he => h.insert he
  | release hphase => exact fun _ _ he => h.erase he
  | expire hstored => exact fun _ _ he => h.erase he
  | taken hphase htaken => exact h
  | settle body hphase => exact h
  | read hphase => exact h
  | stop _ => exact h
  | lapse hgone => exact h

/-- In every reachable store. -/
theorem written_of_reaches {ls : List StoreEvent}
    (hr : Reaches (next request) (fun _ _ => True) initial ls σ) : σ.Written request := by
  refine hr.invariant (P := fun σ => σ.Written request) ?_ ?_
  · intro k e he
    cases he
  · exact fun σ l τ h _ hn => h.next hn

/-- A response is replayed to a request with the key of the one it was stored for. -/
theorem key_eq_of_replays {ls : List StoreEvent} {i j : ℕ}
    (h : Happened (next request) initial ls fun σ l _ => σ.Replays request i j l) :
    key request j = key request i := by
  obtain ⟨before, l, after, σ, τ, -, hr, -, hreplays⟩ := h
  obtain ⟨-, -, r, hstored⟩ : σ.Replays request i j l := hreplays
  have hwritten := written_of_reaches hr (key request i) ⟨.response r, j⟩ hstored
  exact hwritten

/-! ## The result -/

/-- The run in which a second request gets the response of the first. -/
theorem replays_of_key_eq (hkey : key request 1 = key request 0) : ∃ ls σ,
    Reaches (next request) (fun _ _ => True) initial ls σ ∧
      Happened (next request) initial ls fun σ l _ => σ.Replays request 1 0 l := by
  have h₁ : Reaches (next request) (fun _ _ => True) initial [.claim 0] _ :=
    Reaches.nil.snoc trivial (next_claim rfl (Finmap.lookup_empty _))
  have h₂ := (h₁.snoc (i := .settle 0 (some none)) trivial rfl).snoc (i := .land 0) trivial rfl
  have htaken : ∀ e, ((initial.redis.insert (key request 0) ⟨.inProgress, 0⟩).insert
      (key request 0) e).lookup (key request 1) = some e := by
    intro e
    rw [hkey]
    exact Finmap.lookup_insert _
  have h₃ := h₂.snoc (i := .claim 1) trivial (next_claim_taken rfl (htaken _))
  have h₄ := h₃.snoc (i := .read 1) trivial rfl
  exact ⟨_, _, h₄, _, .read 1, [], _, _, rfl, h₃, rfl, rfl, rfl, _, htaken _⟩

/-- **When a replayed response comes from a request of the same origin**, in every run
and whatever the other requests are: exactly unless the two can be confused. -/
theorem replays_same_origin_iff (r s : KeyedRequest) :
    (∀ (request : ℕ → KeyedRequest) (i j : ℕ) (ls : List StoreEvent) (σ : IdempotencyStore),
      request j = r → request i = s →
      Reaches (next request) (fun _ _ => True) initial ls σ →
      Happened (next request) initial ls (fun σ l _ => σ.Replays request i j l) →
      r.SameOrigin s) ↔ ¬ r.Confusable s := by
  refine ⟨?_, ?_⟩
  · rintro hall ⟨hhandler, htail, hdiffer⟩
    obtain ⟨request, hrequest⟩ : ∃ request : ℕ → KeyedRequest,
        request = fun n => if n = 0 then r else s := ⟨_, rfl⟩
    have h₀ : request 0 = r := by rw [hrequest]; rfl
    have h₁ : request 1 = s := by rw [hrequest]; rfl
    have hkey := KeyedRequest.buildRedisKey_eq_iff.mpr ⟨hhandler, htail⟩
    have hkeys : key request 1 = key request 0 := by
      rw [key, key, h₀, h₁]
      exact hkey.symm
    obtain ⟨ls, σ, hr, hreplays⟩ := replays_of_key_eq hkeys
    have horigin := hall request 1 0 ls σ h₀ h₁ hr hreplays
    exact hdiffer ((KeyedRequest.sameOrigin_iff hkey).mp horigin)
  · rintro hnot request i j ls σ rfl rfl - hreplays
    have hkey := key_eq_of_replays hreplays
    obtain ⟨hhandler, htail⟩ := KeyedRequest.buildRedisKey_eq_iff.mp hkey
    refine (KeyedRequest.sameOrigin_iff hkey).mpr ?_
    by_contra hdiffer
    exact hnot ⟨hhandler, htail, hdiffer⟩

end IdempotencyStore

open IdempotencyStore

namespace Sample

/-- A login from an address, with a key. -/
def login (ip rawKey : JsString) (hpos : 0 < rawKey.length)
    (hle : rawKey.length ≤ idempotencyMaxKeyLength) : KeyedRequest where
  method := .post
  handler := ⟨⟨js "AuthController", by decide⟩, ⟨js "login", by decide⟩⟩
  user := none
  ip := ip
  params := []
  header := some (.single rawKey)
  httpCode := none
  rawKey := rawKey
  isMutating := HttpMethod.isMutating_post
  rawKey_pos := hpos
  rawKey_le := hle

/-- Two addresses of version 6, one of which the other begins with. -/
example : (login (js "fe80::1") (js "2:k1") (by decide) (by decide)).Confusable
    (login (js "fe80::1:2") (js "k1") (by decide) (by decide)) :=
  ⟨rfl, rfl, fun h => absurd (h.2 rfl) (by decide)⟩

/-- The approval of one expense, and the approval of another with the same key. -/
def twoApprovals : ℕ → KeyedRequest
  | 0 => approveExpense (js "e1")
  | _ => approveExpense (js "e2")

end Sample

/-- **One approval is reported for another**: the approval of the second expense is
answered with the response to the approval of the first, and not executed. -/
theorem approval_replayed_for_another : ∃ ls σ,
    Reaches (next Sample.twoApprovals) (fun _ _ => True) initial ls σ ∧
      Happened (next Sample.twoApprovals) initial ls
        (fun σ l _ => σ.Replays Sample.twoApprovals 1 0 l) ∧
      (Sample.twoApprovals 0).params ≠ (Sample.twoApprovals 1).params ∧
      ¬ (Sample.twoApprovals 0).SameOrigin (Sample.twoApprovals 1) := by
  have hparams : (Sample.twoApprovals 0).params ≠ (Sample.twoApprovals 1).params := by decide
  obtain ⟨ls, σ, hr, hreplays⟩ := @replays_of_key_eq Sample.twoApprovals rfl
  exact ⟨ls, σ, hr, hreplays, hparams, fun horigin => hparams horigin.params⟩

end RatelPlatform
