import RatelPlatform.JsString

/-!
# Idempotency keys

A mutating request may carry an `Idempotency-Key`. The interceptor stores the
outcome of the request in Redis, under a key it puts together from the handler, the
caller and the key of the header, with colons in between. The parameters of the
route are not part of it.

A handler and a user id hold no colon, so the pieces can be told apart
(`buildRedisKey_eq_iff`); an address of version 6 does, so where nobody is logged in
the address and the key behind it cannot.
-/

namespace RatelPlatform

/-- A colon. -/
abbrev colon : UInt16 := 0x3A

/-! ## Requests -/

/-- A user id: the text of a UUID. -/
structure UserIdText where
  text : JsString
  /-- hexadecimal digits and hyphens -/
  digits : ∀ u ∈ text, u ∈ js "0123456789abcdef-"
  length_eq : text.length = 36

/-- An identifier of the source. -/
@[ext]
structure Identifier where
  text : JsString
  /-- no dot and no colon -/
  plain : ∀ u ∈ text, u ≠ 0x2E ∧ u ≠ colon
  deriving DecidableEq

/-- A method of a controller. -/
@[ext]
structure HandlerName where
  className : Identifier
  methodName : Identifier
  deriving DecidableEq

/-- The method of a request. -/
inductive HttpMethod
  | get
  | post
  | put
  | patch
  | delete
  deriving DecidableEq

/-- `MUTATING_METHODS` -/
def HttpMethod.isMutating (m : HttpMethod) : Bool := m = .post || m = .patch

@[simp]
theorem HttpMethod.isMutating_post : HttpMethod.post.isMutating = true := rfl

/-- The header, sent once or several times. -/
inductive HeaderValue
  | single (value : JsString)
  | several (first : JsString) (rest : List JsString)

/-- What the interceptor sees of a request. -/
structure HttpRequest where
  method : HttpMethod
  handler : HandlerName
  /-- who is logged in -/
  user : Option UserIdText
  ip : JsString
  /-- the parameters of the route -/
  params : List (JsString × JsString)
  header : Option HeaderValue
  /-- the status of `@HttpCode`, if the handler has one -/
  httpCode : Option ℕ

/-- Why the interceptor refuses a request. -/
inductive IdempotencyError
  | invalidKey (reason : String)
  | keyInProgress

namespace IdempotencyError

def code : IdempotencyError → String
  | invalidKey _ => "invalid-idempotency-key"
  | keyInProgress => "idempotency-key-in-progress"

def httpStatus : IdempotencyError → ℕ
  | invalidKey _ => 400
  | keyInProgress => 409

def message : IdempotencyError → String
  | invalidKey reason => s!"Invalid Idempotency-Key header: {reason}"
  | keyInProgress =>
    "A request with this Idempotency-Key is already being processed. Retry once it completes " ++
      "rather than concurrently."

end IdempotencyError

/-- `IDEMPOTENCY_MAX_KEY_LENGTH` -/
def idempotencyMaxKeyLength : ℕ := 255

/-- A request the interceptor guards: mutating, with a key of a valid length. -/
structure KeyedRequest extends HttpRequest where
  rawKey : JsString
  isMutating : method.isMutating = true
  rawKey_pos : 0 < rawKey.length
  rawKey_le : rawKey.length ≤ idempotencyMaxKeyLength

/-- `Array.isArray(header) ? header[0] : header` -/
def HeaderValue.rawKey : HeaderValue → JsString
  | single value => value
  | several first _ => first

/-- The start of `intercept`: the guarded request, or none if the request just passes. -/
def HttpRequest.intercept (request : HttpRequest) : Except IdempotencyError (Option KeyedRequest) :=
  if hmethod : request.method.isMutating = true then
    match request.header with
    | none => .ok none
    -- an empty string is no header
    | some (.single []) => .ok none
    | some header =>
      if hpos : header.rawKey.length = 0 then .error (.invalidKey "must not be empty")
      else if hle : idempotencyMaxKeyLength < header.rawKey.length then
        .error (.invalidKey s!"must be at most {idempotencyMaxKeyLength} characters")
      else .ok (some ⟨request, header.rawKey, hmethod, Nat.pos_of_ne_zero hpos, Nat.le_of_not_lt hle⟩)
  else .ok none

/-- `resolveStatusCode` -/
def HttpRequest.statusCode (request : HttpRequest) : ℕ :=
  request.httpCode.getD (if request.method = .post then 201 else 200)

/-! ## The key -/

namespace KeyedRequest

/-- Who a key belongs to. -/
def scope (request : KeyedRequest) : JsString :=
  match request.user with
  | some user => user.text
  | none => js "ip:" ++ request.ip

/-- The handler a key belongs to. -/
def handlerText (request : KeyedRequest) : JsString :=
  request.handler.className.text ++ js "." ++ request.handler.methodName.text

/-- `buildRedisKey` -/
def buildRedisKey (request : KeyedRequest) : JsString :=
  js "idempotency:" ++ request.handlerText ++ js ":" ++ request.scope ++ js ":" ++ request.rawKey

/-- The requests are by the same caller, to the same handler, about the same resource
and with the same key. -/
structure SameOrigin (r s : KeyedRequest) : Prop where
  caller : r.user.map UserIdText.text = s.user.map UserIdText.text
  address : r.user = none → r.ip = s.ip
  handler : r.handler = s.handler
  params : r.params = s.params
  rawKey : r.rawKey = s.rawKey

/-- What stands behind the handler in a key is the same: the user and the key of the
header, or, where nobody is logged in, the address and the key with a colon between. -/
def SameTail (r s : KeyedRequest) : Prop :=
  match r.user, s.user with
  | some u, some v => u.text = v.text ∧ r.rawKey = s.rawKey
  | none, none => r.ip ++ js ":" ++ r.rawKey = s.ip ++ js ":" ++ s.rawKey
  | _, _ => False

end KeyedRequest

/-! ## Taking a key apart -/

/-- A text is cut at its first separator in one way. -/
theorem append_separator_inj {α : Type} {sep : α} {a b x y : List α} (ha : sep ∉ a) (hb : sep ∉ b)
    (h : a ++ sep :: x = b ++ sep :: y) : a = b ∧ x = y := by
  induction a generalizing b with
  | nil =>
    cases b with
    | nil => exact ⟨rfl, (List.cons.inj h).2⟩
    | cons c b =>
      obtain ⟨rfl, -⟩ := List.cons.inj h
      exact absurd List.mem_cons_self hb
  | cons c a ih =>
    cases b with
    | nil =>
      obtain ⟨rfl, -⟩ := List.cons.inj h
      exact absurd List.mem_cons_self ha
    | cons d b =>
      obtain ⟨rfl, htail⟩ := List.cons.inj h
      obtain ⟨rfl, hxy⟩ := ih (fun hmem => ha (List.mem_cons_of_mem _ hmem))
        (fun hmem => hb (List.mem_cons_of_mem _ hmem)) htail
      exact ⟨rfl, hxy⟩

theorem UserIdText.colon_notMem (u : UserIdText) : colon ∉ u.text := by
  intro hmem
  exact absurd (u.digits colon hmem) (by decide)

/-- No user id starts a key as an address does. -/
theorem UserIdText.ne_ip (u : UserIdText) : u.text ≠ js "ip" := by
  intro h
  have hlength := u.length_eq
  rw [h] at hlength
  exact absurd hlength (by decide)

namespace KeyedRequest

variable {r s : KeyedRequest}

theorem colon_notMem_handlerText (r : KeyedRequest) : colon ∉ r.handlerText := by
  intro hmem
  rcases List.mem_append.mp hmem with hmem | hmem
  · rcases List.mem_append.mp hmem with hmem | hdot
    · exact (r.handler.className.plain _ hmem).2 rfl
    · exact absurd hdot (by decide)
  · exact (r.handler.methodName.plain _ hmem).2 rfl

/-- A handler is known by its text. -/
theorem handlerText_eq_iff : r.handlerText = s.handlerText ↔ r.handler = s.handler := by
  refine ⟨?_, ?_⟩
  · intro h
    have hdot : ∀ i : Identifier, (0x2E : UInt16) ∉ i.text := fun i hmem => (i.plain _ hmem).1 rfl
    rw [handlerText, handlerText, List.append_assoc, List.append_assoc] at h
    obtain ⟨hclass, hmethod⟩ := append_separator_inj (hdot _) (hdot _) h
    exact HandlerName.ext (Identifier.ext hclass) (Identifier.ext hmethod)
  · intro h
    rw [handlerText, handlerText, h]

theorem buildRedisKey_eq (r : KeyedRequest) :
    r.buildRedisKey =
      js "idempotency:" ++ (r.handlerText ++ colon :: (r.scope ++ colon :: r.rawKey)) := by
  simp only [buildRedisKey, List.append_assoc]
  rfl

/-- What stands behind the handler, taken apart. -/
theorem sameTail_iff :
    r.scope ++ colon :: r.rawKey = s.scope ++ colon :: s.rawKey ↔ r.SameTail s := by
  have haddress : ∀ {t : KeyedRequest}, t.user = none → t.scope ++ colon :: t.rawKey =
      js "ip" ++ colon :: (t.ip ++ colon :: t.rawKey) := by
    intro t ht
    rw [scope, ht]
    exact List.append_assoc _ _ _
  have hip : colon ∉ js "ip" := by decide
  rcases hr : r.user with _ | u <;> rcases hs : s.user with _ | v
  · rw [haddress hr, haddress hs, SameTail, hr, hs]
    refine ⟨?_, ?_⟩
    · intro h
      rw [List.append_assoc, List.append_assoc]
      exact (append_separator_inj hip hip h).2
    · intro h
      rw [List.append_assoc, List.append_assoc] at h
      exact congrArg (fun t => js "ip" ++ colon :: t) h
  · rw [haddress hr, SameTail, hr, hs, scope, hs]
    refine iff_of_false (fun h => ?_) id
    exact v.ne_ip (append_separator_inj hip v.colon_notMem h).1.symm
  · rw [haddress hs, SameTail, hr, hs, scope, hr]
    refine iff_of_false (fun h => ?_) id
    exact u.ne_ip (append_separator_inj u.colon_notMem hip h).1
  · rw [SameTail, hr, hs, scope, scope, hr, hs]
    refine ⟨?_, ?_⟩
    · exact append_separator_inj u.colon_notMem v.colon_notMem
    · rintro ⟨htext, hkey⟩
      simp only [htext, hkey]

/-- **When two requests have the same key**: the same handler, and the same user and
key of the header, or, where nobody is logged in, addresses and keys that read the
same with a colon between them. -/
theorem buildRedisKey_eq_iff :
    r.buildRedisKey = s.buildRedisKey ↔ r.handler = s.handler ∧ r.SameTail s := by
  rw [buildRedisKey_eq, buildRedisKey_eq, ← handlerText_eq_iff, ← sameTail_iff]
  refine ⟨?_, ?_⟩
  · intro h
    exact append_separator_inj r.colon_notMem_handlerText s.colon_notMem_handlerText
      (List.append_cancel_left h)
  · rintro ⟨hhandler, htail⟩
    rw [hhandler, htail]

/-- Requests with one key are of one origin unless the route or the address differs. -/
theorem sameOrigin_iff (h : r.buildRedisKey = s.buildRedisKey) :
    r.SameOrigin s ↔ r.params = s.params ∧ (r.user = none → r.ip = s.ip) := by
  obtain ⟨hhandler, htail⟩ := buildRedisKey_eq_iff.mp h
  refine ⟨?_, ?_⟩
  · exact fun horigin => ⟨horigin.params, horigin.address⟩
  · rintro ⟨hparams, hip⟩
    rw [SameTail] at htail
    rcases hr : r.user with _ | u <;> rcases hs : s.user with _ | v
    · rw [hr, hs, hip hr] at htail
      exact ⟨by rw [hr, hs], hip, hhandler, hparams, List.append_cancel_left htail⟩
    · rw [hr, hs] at htail
      exact htail.elim
    · rw [hr, hs] at htail
      exact htail.elim
    · rw [hr, hs] at htail
      refine ⟨?_, hip, hhandler, hparams, htail.2⟩
      rw [hr, hs]
      exact congrArg some htail.1

end KeyedRequest

end RatelPlatform
