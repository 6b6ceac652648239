import RatelPlatform.TracedEvents

/-!
# The audit trail

An entry of the audit log is about an event of the outbox. It is an entry of the organization
whose command recorded the event, it says what the request said of itself, and it names nobody
but the user whom the command names; of a decision it does name the user (`audit_trail_traced`).
This holds of all commands, whichever organization reads its log, though the subscriber only
knows the payload.
-/

namespace RatelPlatform

/-! ## Reading a payload -/

theorem ownMember_safeEntries (members : List (JsString × JsValue)) (key : JsString) :
    ownMember (safeEntries members) key = (ownMember members key).map toJsonSafe := by
  rw [safeEntries_eq_map]
  induction members with
  | nil => rfl
  | cons m members ih =>
    rw [List.map_cons, ownMember_cons, ownMember_cons, ih]
    split_ifs
    · rfl
    · rfl

theorem textMember_eq_some {payload : Snapshot} {key text : JsString} :
    textMember payload key = some text ↔ ownMember payload key = some (.string text) := by
  simp only [textMember]
  split
  · next found hfound => rw [hfound, Option.some.injEq, Option.some.injEq, Json.string.injEq]
  · next hnone => exact iff_of_false nofun (hnone text)

/-- Texts are what they were, in whatever order `jsonb` hands the members back. -/
theorem textMember_of_same {members : Snapshot} {d : JsonData}
    (hnodup : (members.map Prod.fst).Nodup) (h : (Json.object members).Same d.value)
    (key : JsString) : textMember d.members key = textMember members key := by
  refine Option.ext fun text => ?_
  obtain ⟨value, unique⟩ := d
  cases h with
  | @object _ ns ps hmembers hperm =>
    have hkeys := map_fst_eq_of_sameMember hmembers
    have hps : (ps.map Prod.fst).Nodup := by
      rwa [← (hperm.map Prod.fst).nodup_iff, ← hkeys]
    simp only [JsonData.members]
    rw [textMember_eq_some, textMember_eq_some, ownMember_eq_some hps, ownMember_eq_some hnodup,
      ← hperm.mem_iff]
    clear hperm hkeys hps hnodup unique
    induction hmembers with
    | nil => exact Iff.rfl
    | cons hm _ ih =>
      rw [List.mem_cons, List.mem_cons]
      refine or_congr ?_ ih
      obtain ⟨k, hsame⟩ := hm
      refine ⟨fun heq => ?_, fun heq => ?_⟩
      · obtain ⟨rfl, rfl⟩ := Prod.mk.inj heq
        cases hsame
        rfl
      · obtain ⟨rfl, rfl⟩ := Prod.mk.inj heq
        cases hsame
        rfl

/-- The keys of the payloads are read as they are. -/
theorem payloadKeys_apart : ∀ keys ∈ payloadKeys,
    ((("organizationId" :: keys) ++ ["changes"]).map js).Nodup ∧
      protoKey ∉ (("organizationId" :: keys) ++ ["changes"]).map js := by
  decide

/-- The keys under which the subscriber looks for who acted, and for whom. -/
def readKeys : List String := "organizationId" :: actorKeys

theorem readKeys_apart : ∀ keys ∈ payloadKeys, ∀ k ∈ ("organizationId" :: keys) ++ ["changes"],
    ∀ key ∈ readKeys, js k = js key → k = key := by
  decide

theorem changes_apart : "changes" ∉ readKeys := by decide

section

variable {idText : Id → JsString} {jsonb : JsonData → JsonData} {command : Command}
  {event : DomainEvent} {context : Option RequestContextData} {randomId : JsString}
  {changes : Option Changes}

theorem DomainEvent.Traces.keys (h : event.Traces command) :
    ∃ keys ∈ payloadKeys, event.payload.map Prod.fst = "organizationId" :: keys := by
  obtain ⟨O, fields, -, hpayload, hkeys⟩ := h.organization
  exact ⟨_, hkeys, by rw [hpayload, List.map_cons]⟩

theorem map_fst_recordedPayload (payload : List (String × PayloadValue)) :
    ((recordedPayload idText payload changes).map Prod.fst).Sublist
      ((payload.map Prod.fst ++ ["changes"]).map js) := by
  rw [recordedPayload, payloadMembers_eq_map, List.map_append, List.map_map, List.map_append,
    List.map_map]
  refine List.Sublist.append (List.Sublist.refl _) ?_
  cases changes with
  | none => exact List.nil_sublist _
  | some changes => exact List.Sublist.refl _

/-- No key is recorded twice, and none is read differently from how it is written. -/
theorem keys_recordedPayload (h : event.Traces command) :
    ((recordedPayload idText event.payload changes).map Prod.fst).Nodup ∧
      protoKey ∉ (recordedPayload idText event.payload changes).map Prod.fst := by
  obtain ⟨keys, hkeys, hpayload⟩ := h.keys
  obtain ⟨hnodup, hproto⟩ := payloadKeys_apart keys hkeys
  have hsub := @map_fst_recordedPayload idText changes event.payload
  rw [hpayload] at hsub
  exact ⟨hnodup.sublist hsub, fun hmem => hproto (hsub.subset hmem)⟩

/-- Under a key that the subscriber reads, what is recorded is what the event says. -/
theorem mem_recordedPayload (h : event.Traces command) {key : String} (hkey : key ∈ readKeys)
    {v : JsValue} : (js key, v) ∈ recordedPayload idText event.payload changes ↔
      ∃ value, (key, value) ∈ event.payload ∧ v = value.toJs idText := by
  obtain ⟨keys, hkeys, hpayload⟩ := h.keys
  rw [recordedPayload, payloadMembers_eq_map, List.mem_append, List.mem_map]
  refine ⟨?_, fun hm => ?_⟩
  · rintro (⟨⟨k, value⟩, hm, heq⟩ | hchanges)
    · obtain ⟨hk, rfl⟩ := Prod.mk.inj heq
      have hk' : k ∈ ("organizationId" :: keys) ++ ["changes"] := by
        rw [← hpayload]
        exact List.mem_append_left _ (List.mem_map_of_mem (f := Prod.fst) hm)
      obtain rfl := readKeys_apart keys hkeys k hk' key hkey hk
      exact ⟨value, hm, rfl⟩
    · obtain ⟨_, -, heq⟩ := Option.map_eq_some_iff.mp (Option.mem_toList.mp hchanges)
      have hk := readKeys_apart keys hkeys "changes"
        (List.mem_append_right _ (List.mem_singleton_self _)) key hkey (Prod.mk.inj heq).1
      exact absurd (hk ▸ hkey) changes_apart
  · obtain ⟨value, hm, rfl⟩ := hm
    exact .inl ⟨(key, value), hm, rfl⟩

/-- **What the subscriber reads** under one of its keys is what the event says there. -/
theorem textMember_enqueueRow (hjsonb : ∀ d : JsonData, d.value.Same (jsonb d).value)
    (h : event.Traces command) {key : String} (hkey : key ∈ readKeys) {text : JsString} :
    textMember (OutboxService.enqueueRow idText jsonb context randomId event
        changes).payload.members (js key) = some text ↔
      ∃ value, (key, value) ∈ event.payload ∧ toJsonSafe (value.toJs idText) = .string text := by
  obtain ⟨hentries, hproto⟩ := @keys_recordedPayload idText command event changes h
  have hsame : (Json.object (assignAll (safeEntries (recordedPayload idText event.payload
      changes)))).Same (OutboxService.enqueueRow idText jsonb context randomId event
        changes).payload.value := by
    have hvalue := hjsonb (.of (.object (recordedPayload idText event.payload changes)))
    simp only [JsonData.of, toJsonSafe] at hvalue
    exact hvalue
  have hread : ownMember (assignAll (safeEntries (recordedPayload idText event.payload changes)))
      (js key) = (ownMember (recordedPayload idText event.payload changes) (js key)).map
        toJsonSafe := by
    rw [← ownMember_safeEntries]
    refine (ownMember_assignOnto ?_ ?_ [] _).trans (Option.or_none)
    · rwa [map_fst_safeEntries]
    · rwa [map_fst_safeEntries]
  rw [textMember_of_same (keys_assignAll_nodup _) hsame, textMember_eq_some, hread,
    Option.map_eq_some_iff]
  simp only [ownMember_eq_some hentries, mem_recordedPayload h hkey]
  refine ⟨?_, ?_⟩
  · rintro ⟨_, ⟨value, hm, rfl⟩, htext⟩
    exact ⟨value, hm, htext⟩
  · rintro ⟨value, hm, htext⟩
    exact ⟨_, ⟨value, hm, rfl⟩, htext⟩

/-! ## What an entry tells -/

/-- The entry is about the event in the row; it is one of the organization of the command, names
nobody but its user, and says what the request said of itself. -/
structure AuditLogEntry.Tells (idText : Id → JsString) (command : Command)
    (context : Option RequestContextData) (row : OutboxEventRow) (entry : AuditLogEntry) :
    Prop where
  subject : entry.entityType = js row.aggregateType ∧ entry.entityId = idText row.aggregateId ∧
    entry.action = js row.eventType
  organization : ∃ O ∈ command.organizationId, entry.organizationId = idText O
  actor : ∀ actor ∈ entry.actorUserId, ∃ user ∈ command.actorId, actor = idText user
  decided : row.eventType ∈ decisionTypes → entry.actorUserId.isSome
  context : ∀ c ∈ context, entry.correlationId = c.correlationId ∧
    entry.requestId = some c.requestId ∧ entry.ipAddress = c.ipAddress ∧
    entry.userAgent = c.userAgent ∧ entry.source = c.source

theorem RecordCall.entry_tells {sha256 : List Char → JsString}
    (hjsonb : ∀ d : JsonData, d.value.Same (jsonb d).value) (h : event.Traces command)
    {call : RecordCall} (hcall : call.input = AuditSubscriber.handle idText
      (OutboxService.enqueueRow idText jsonb context randomId event changes))
    (prevHash : JsString) : AuditLogEntry.Tells idText command context
      (OutboxService.enqueueRow idText jsonb context randomId event changes)
      (call.entry sha256 jsonb prevHash) := by
  have hread : ∀ {key text}, key ∈ readKeys →
      (textMember (OutboxService.enqueueRow idText jsonb context randomId event
        changes).payload.members (js key) = some text ↔ ∃ value, (key, value) ∈ event.payload ∧
          toJsonSafe (value.toJs idText) = .string text) :=
    fun hkey => textMember_enqueueRow hjsonb h hkey
  simp only [RecordCall.entry, hcall, AuditSubscriber.handle]
  refine ⟨⟨rfl, rfl, rfl⟩, ?_, fun actor hactor => ?_, fun hdecision => ?_, ?_⟩
  · obtain ⟨O, fields, horg, hpayload, -⟩ := h.organization
    have hmem : ("organizationId", PayloadValue.id O) ∈ event.payload := by
      rw [hpayload]
      exact List.mem_cons_self
    refine ⟨O, horg, ?_⟩
    dsimp only
    rw [(hread List.mem_cons_self).mpr ⟨.id O, hmem, rfl⟩, Option.getD_some]
  · obtain ⟨key, hkey, htext⟩ := List.exists_of_findSome?_eq_some hactor
    obtain ⟨value, hmem, hvalue⟩ := (hread (List.mem_cons_of_mem _ hkey)).mp htext
    obtain ⟨user, huser, rfl⟩ := h.actor _ hmem hkey
    exact ⟨user, huser, (Json.string.inj hvalue).symm⟩
  · obtain ⟨⟨key, value⟩, hmem, hkey⟩ := h.decided hdecision
    obtain ⟨user, -, rfl⟩ := h.actor _ hmem hkey
    refine List.findSome?_isSome_iff.mpr ⟨key, hkey, Option.isSome_iff_exists.mpr ⟨idText user, ?_⟩⟩
    exact (hread (List.mem_cons_of_mem _ hkey)).mpr ⟨_, hmem, rfl⟩
  · rintro c rfl
    exact ⟨rfl, rfl, rfl, rfl, rfl⟩

end

/-! ## Runs -/

namespace AuditedSystem

variable {idText : Id → JsString} {jsonb : JsonData → JsonData} {sha256 : List Char → JsString}
  {D : Dispatcher} {σ τ : AuditedSystem}

/-- The entry is what the subscriber made of a row. -/
def Records (idText : Id → JsString) (jsonb : JsonData → JsonData) (sha256 : List Char → JsString)
    (outbox : Table Id OutboxEventRow) (id : Id) (entry : AuditLogEntry) : Prop :=
  ∃ row, outbox.lookup id = some row ∧ ∃ (call : RecordCall) (prevHash : JsString),
    call.input = AuditSubscriber.handle idText row ∧ entry = call.entry sha256 jsonb prevHash

/-- The row is the one of an event of the command. -/
def ComesFrom (idText : Id → JsString) (jsonb : JsonData → JsonData)
    (outbox : Table Id OutboxEventRow) (id : Id) (command : Command)
    (context : Option RequestContextData) : Prop :=
  ∃ event changes randomId, event.Traces command ∧ outbox.lookup id =
    some (OutboxService.enqueueRow idText jsonb context randomId event changes)

/-- The columns of the outbox are those of its events, rows come from requests, and entries from
rows. -/
structure Sound (idText : Id → JsString) (jsonb : JsonData → JsonData)
    (sha256 : List Char → JsString) (σ : AuditedSystem) : Prop where
  wellFormed : σ.store.WellFormed
  published : ∀ id ∈ σ.outbox, id ∈ σ.delivery.outboxEvents
  rows : ∀ id request context, σ.requests.lookup id = some (request, context) →
    ComesFrom idText jsonb σ.outbox id request.command context
  entries : List.Forall₂ (Records idText jsonb sha256 σ.outbox) σ.subjects σ.auditLog

theorem Sound.initial (administration : Administration) :
    Sound idText jsonb sha256 (initial administration) where
  wellFormed := Store.wellFormed_initial administration
  published _ h := absurd h Finmap.notMem_empty
  rows _ _ _ h := by simp [AuditedSystem.initial] at h
  entries := .nil

theorem mem_of_grows {σ τ : DeliverySystem} (h : DeliverySystem.Grows σ τ) {id : Id}
    (hid : id ∈ σ.outboxEvents) : id ∈ τ.outboxEvents := by
  obtain ⟨row, hrow⟩ := Finmap.mem_iff.mp hid
  obtain ⟨row', hrow', -⟩ := h.events id row hrow
  exact Finmap.mem_of_lookup_eq_some hrow'

/-- A new row changes none. -/
theorem lookup_enqueued {outbox : Table Id OutboxEventRow} {id id' : Id} {row row' : OutboxEventRow}
    (hnew : id ∉ outbox) (hrow : outbox.lookup id' = some row') :
    (outbox.insert id row).lookup id' = some row' := by
  rw [Finmap.lookup_insert_of_ne]
  · exact hrow
  · rintro rfl
    exact hnew (Finmap.mem_of_lookup_eq_some hrow)

theorem Records.enqueued {outbox : Table Id OutboxEventRow} {id id' : Id} {row : OutboxEventRow}
    {entry : AuditLogEntry} (hnew : id ∉ outbox)
    (h : Records idText jsonb sha256 outbox id' entry) :
    Records idText jsonb sha256 (outbox.insert id row) id' entry := by
  obtain ⟨row', hrow', hcall⟩ := h
  exact ⟨row', lookup_enqueued hnew hrow', hcall⟩

theorem ComesFrom.enqueued {outbox : Table Id OutboxEventRow} {id id' : Id} {row : OutboxEventRow}
    {command : Command} {context : Option RequestContextData} (hnew : id ∉ outbox)
    (h : ComesFrom idText jsonb outbox id' command context) :
    ComesFrom idText jsonb (outbox.insert id row) id' command context := by
  obtain ⟨event, changes, randomId, htraces, hrow⟩ := h
  exact ⟨event, changes, randomId, htraces, lookup_enqueued hnew hrow⟩

/-- **A row is created**, of an event that tells what a command of the request does. -/
theorem Sound.enqueue (h : Sound idText jsonb sha256 σ) {request : Option Request}
    {context : Option RequestContextData} {now : JsDate} {row : NewOutboxRow} {event : DomainEvent}
    (htraces : ∀ r ∈ request, event.Traces r.command)
    (hn : σ.enqueue idText jsonb D request context now row event = some τ) :
    Sound idText jsonb sha256 τ ∧ τ.store = σ.store := by
  obtain ⟨delivery, hdelivery, rfl⟩ := Option.map_eq_some_iff.mp hn
  have hgrows := DeliverySystem.next_grows hdelivery
  obtain ⟨hfresh, hpublished⟩ : row.id ∉ σ.delivery.outboxEvents ∧
      row.id ∈ delivery.outboxEvents := by
    simp only [DeliverySystem.next] at hdelivery
    split at hdelivery
    · cases hdelivery
    · next hnone =>
      cases hdelivery
      exact ⟨Finmap.lookup_eq_none.mp hnone, Finmap.mem_insert.mpr (.inl rfl)⟩
  have hnew : row.id ∉ σ.outbox := fun hmem => hfresh (h.published _ hmem)
  refine ⟨⟨h.wellFormed, fun id hid => ?_, fun id r c hrequest => ?_,
    h.entries.imp fun _ _ => Records.enqueued hnew⟩, rfl⟩
  · rcases Finmap.mem_insert.mp hid with rfl | hid
    · exact hpublished
    · exact mem_of_grows hgrows (h.published id hid)
  · cases request with
    | none => exact (h.rows id r c hrequest).enqueued hnew
    | some request =>
      obtain ⟨rfl, heq⟩ | ⟨-, hold⟩ := Table.lookup_insert_cases hrequest
      · obtain ⟨rfl, rfl⟩ := Prod.mk.inj heq
        exact ⟨event, row.changes, row.randomId, htraces _ rfl, Finmap.lookup_insert _⟩
      · exact (h.rows id r c hold).enqueued hnew

theorem Sound.enqueueAll {request : Request} {context : Option RequestContextData} {now : JsDate}
    {rows : List (NewOutboxRow × DomainEvent)} (h : Sound idText jsonb sha256 σ)
    (htraces : ∀ r ∈ rows, r.2.Traces request.command)
    (hn : enqueueAll idText jsonb D request context now σ rows = some τ) :
    Sound idText jsonb sha256 τ := by
  induction rows generalizing σ with
  | nil =>
    cases hn
    exact h
  | cons r rows ih =>
    obtain ⟨row, event⟩ := r
    obtain ⟨ρ, hrow, hrest⟩ := Option.bind_eq_some_iff.mp hn
    have hevent : ∀ r ∈ some request, event.Traces r.command := by
      rintro _ ⟨⟩
      exact htraces _ List.mem_cons_self
    exact ih (h.enqueue hevent hrow).1 (fun r hr => htraces r (List.mem_cons_of_mem _ hr)) hrest

/-- What becomes of the log: nothing, unless a transaction has committed for certain, or an
entry of the row. -/
theorem settleCall_cases {call : Option (Id × Bool)} {recording : Option Recording}
    (h : σ.settleCall idText jsonb sha256 call recording = some τ) :
    (τ = σ ∧ ∀ id, call ≠ some (id, true)) ∨
      ∃ (id : Id) (certain : Bool) (row : OutboxEventRow) (call' : RecordCall),
        call = some (id, certain) ∧ σ.outbox.lookup id = some row ∧
        call'.input = AuditSubscriber.handle idText row ∧
        τ = { σ with
          auditLog := record sha256 jsonb σ.auditLog call'
          subjects := σ.subjects ++ [id] } := by
  rcases call with _ | ⟨id, _ | _⟩ <;> rcases recording with _ | recording <;>
    simp only [settleCall, recordEntry, Option.map_eq_some_iff, Option.some.injEq, reduceCtorEq]
      at h
  · exact .inl ⟨h.symm, by simp⟩
  · exact .inl ⟨h.symm, by simp⟩
  · obtain ⟨row, hrow, rfl⟩ := h
    exact .inr ⟨id, false, row, _, rfl, hrow, rfl, rfl⟩
  · obtain ⟨row, hrow, rfl⟩ := h
    exact .inr ⟨id, true, row, _, rfl, hrow, rfl, rfl⟩

/-- A step of the delivery, and what becomes of the log. -/
theorem next_delivery {label : DeliverySystem.Label} {recording : Option Recording}
    (h : σ.next idText jsonb sha256 D (.delivery label recording) = some τ) :
    ∃ delivery, DeliverySystem.next D σ.delivery label = some delivery ∧
      ({ σ with delivery } : AuditedSystem).settleCall idText jsonb sha256
        (σ.delivery.auditCall D label) recording = some τ := by
  cases label with
  | enqueue => cases h
  | poller | worker | stall | straggler | operator => exact Option.bind_eq_some_iff.mp h

/-- **One step.** -/
theorem Sound.next {l : AuditedLabel} (h : Sound idText jsonb sha256 σ)
    (hn : σ.next idText jsonb sha256 D l = some τ) : Sound idText jsonb sha256 τ := by
  cases l with
  | command request context rows now =>
    obtain ⟨store, hstore, hrest⟩ := Option.bind_eq_some_iff.mp hn
    dsimp only at hrest
    split_ifs at hrest with hlength
    have hsound : Sound idText jsonb sha256 { σ with store } :=
      ⟨h.wellFormed.next hstore, h.published, h.rows, h.entries⟩
    refine hsound.enqueueAll (fun r hr => ?_) hrest
    exact newEvents_traced h.wellFormed hstore r.2 (List.of_mem_zip hr).2
  | publish event context row now =>
    simp only [AuditedSystem.next] at hn
    exact (h.enqueue (fun _ hr => by cases hr) hn).1
  | delivery label recording =>
    obtain ⟨delivery, hdelivery, hsettle⟩ := next_delivery hn
    have hpublished : ∀ id ∈ σ.outbox, id ∈ delivery.outboxEvents := fun id hid =>
      mem_of_grows (DeliverySystem.next_grows hdelivery) (h.published id hid)
    rcases settleCall_cases hsettle with ⟨rfl, -⟩ |
      ⟨id, certain, row, call, -, hrow, hcall, rfl⟩
    · exact ⟨h.wellFormed, hpublished, h.rows, h.entries⟩
    · refine ⟨h.wellFormed, hpublished, h.rows, List.rel_append h.entries ?_⟩
      exact .cons ⟨row, hrow, call, _, hcall, rfl⟩ .nil

/-- **The audit trail**, in every run of commands, of pollers, redeliveries and operators, with
calls that fail and processes that die: each entry was made for an event of the outbox. Where
the event is one of a command, the entry is an entry of the organization of the command, names
nobody but the user of the command, and says what the request said of itself; if the event is a
decision, the entry does name the user. -/
theorem audit_trail_traced (hjsonb : ∀ d : JsonData, d.value.Same (jsonb d).value)
    {ok : AuditedSystem → AuditedLabel → Prop} {administration : Administration}
    {ls : List AuditedLabel}
    (hr : Reaches (AuditedSystem.next idText jsonb sha256 D) ok (initial administration) ls σ) :
    List.Forall₂ (fun id entry => ∃ row, σ.outbox.lookup id = some row ∧
      ∀ request context, σ.requests.lookup id = some (request, context) →
        AuditLogEntry.Tells idText request.command context row entry)
      σ.subjects σ.auditLog := by
  have hsound : Sound idText jsonb sha256 σ :=
    hr.invariant (Sound.initial administration) fun _ _ _ h _ hn => h.next hn
  refine hsound.entries.imp fun id entry hentry => ?_
  obtain ⟨row, hrow, call, prevHash, hcall, rfl⟩ := hentry
  refine ⟨row, hrow, fun request context hrequest => ?_⟩
  obtain ⟨event, changes, randomId, htraces, hrow'⟩ := hsound.rows id request context hrequest
  obtain rfl := Option.some.inj (hrow.symm.trans hrow')
  exact RecordCall.entry_tells hjsonb htraces hcall prevHash

namespace Sample

/-- An identifier is written in decimals. -/
def decimal (id : Id) : JsString := js (toString id)

/-- A command whose event gets this id in the outbox. -/
def command (request : Request) (id : Id) : AuditedLabel :=
  .command request (some ⟨js "c-1", js "r-1", none, none, js "api"⟩) [⟨id, js "c-2", none⟩]
    RatelPlatform.Sample.noon

/-- The poller goes on. -/
def proceeds : AuditedLabel :=
  .delivery (.poller 0 (.proceed RatelPlatform.Sample.noon)) none

/-- The next event of the batch is dispatched and marked. -/
def dispatched : List AuditedLabel :=
  [proceeds,
    .delivery (.poller 0 (.settle 0 .fulfilled)) (some ⟨RatelPlatform.Sample.noon, js "e-1", 0⟩),
    proceeds, proceeds]

/-- An expense is entered, submitted and approved by 11; then the events are polled. -/
def approvalPolled : List AuditedLabel :=
  [command RatelPlatform.Sample.openJanuary 1, command (RatelPlatform.Sample.create 101 100) 2,
    command (RatelPlatform.Sample.submit 101) 3, command (RatelPlatform.Sample.approve 101 11) 4,
    .delivery (.poller 0 (.poll [1, 2, 3, 4])) none] ++
    dispatched ++ dispatched ++ dispatched ++ dispatched

end Sample

/-- The entry of the approval names the approver. -/
theorem audit_trail_traced_sample : ∃ σ : AuditedSystem,
    σ.auditLog.map AuditLogEntry.actorUserId = [none, none, none, some (js "11")] ∧
      List.Forall₂ (fun id entry => ∃ row, σ.outbox.lookup id = some row ∧
        ∀ request context, σ.requests.lookup id = some (request, context) →
          AuditLogEntry.Tells Sample.decimal request.command context row entry)
        σ.subjects σ.auditLog := by
  have hrun : (runLabels
      (AuditedSystem.next Sample.decimal id (fun _ => []) DeliverySystem.Sample.dispatcher)
      (initial RatelPlatform.Sample.administration) Sample.approvalPolled).map
        (fun σ => σ.auditLog.map AuditLogEntry.actorUserId) =
      some [none, none, none, some (js "11")] := by
    decide +kernel
  obtain ⟨σ, hσ, hactors⟩ := Option.map_eq_some_iff.mp hrun
  exact ⟨σ, hactors, audit_trail_traced (fun d => .refl d.value) (reaches_of_runLabels hσ)⟩

end AuditedSystem

end RatelPlatform
