import RatelPlatform.AuditLog

/-!
# What an audit hash binds

Both payload encodings are injective, and no version 1 payload is a version 2
payload: they have different numbers of members. So if SHA-256 is injective, the
hash of a sealed row binds its version, its predecessor and every field that
version covers (`AuditLogEntry.Sealed.binds`), and two verified chains with the
same last hash are the same history (`histories_agree`).
-/

namespace RatelPlatform

/-! ## The payloads -/

theorem orNull_injective {a b : Option JsString} (h : orNull a = orNull b) : a = b := by
  rcases a with _ | a <;> rcases b with _ | b
  · rfl
  · exact Json.noConfusion h
  · exact Json.noConfusion h
  · rw [Json.string.inj h]

theorem JsDate.toJson_injective {a b : JsDate} (h : a.toJson = b.toJson) : a = b :=
  JsDate.toISOString_injective
    (JsString.ofAscii_injective a.toISOString_ascii b.toISOString_ascii (Json.string.inj h))

theorem canonical_orNull (a : Option JsString) : (orNull a).canonical = orNull a := by
  cases a <;> rfl

theorem entryPayload_injective {p p' : JsString} {e e' : HashableEntry}
    (h : entryPayload p e = entryPayload p' e') : p = p' ∧ e = e' := by
  simp only [entryPayload, Json.object.injEq, List.cons.injEq, Prod.mk.injEq, true_and,
    Json.string.injEq, and_true] at h
  obtain ⟨hp, horg, htype, hid, haction, hactor, hcorr, hdate⟩ := h
  obtain ⟨org, type, id, action, actor, corr, date⟩ := e
  obtain ⟨org', type', id', action', actor', corr', date'⟩ := e'
  simp only at horg htype hid haction hactor hcorr hdate
  obtain rfl := orNull_injective hactor
  obtain rfl := JsDate.toJson_injective hdate
  subst horg htype hid haction hcorr
  exact ⟨hp, rfl⟩

/-- The members of a version 2 payload, as JSON. -/
def entryMembersV2 (prevHash : JsString) (entry : HashableEntry) (oldValue newValue : Json)
    (reason : Option JsString) : List (JsString × Json) := [
  (js "prevHash", .string prevHash),
  (js "organizationId", .string entry.organizationId),
  (js "entityType", .string entry.entityType),
  (js "entityId", .string entry.entityId),
  (js "action", .string entry.action),
  (js "actorUserId", orNull entry.actorUserId),
  (js "correlationId", .string entry.correlationId),
  (js "createdAt", entry.createdAt.toJson),
  (js "oldValue", oldValue),
  (js "newValue", newValue),
  (js "reason", orNull reason)]

section Members

variable (p p' : JsString) (e e' : HashableEntry) (o o' n n' : Json) (r r' : Option JsString)

theorem entryMembersV2_nodup : ((entryMembersV2 p e o n r).map Prod.fst).Nodup := by
  simp only [entryMembersV2, List.map_cons, List.map_nil]
  decide

theorem entryMembersV2_protoFree : protoKey ∉ (entryMembersV2 p e o n r).map Prod.fst := by
  simp only [entryMembersV2, List.map_cons, List.map_nil]
  decide

/-- A version 2 payload is never a version 1 payload. -/
theorem entryPayload_ne_canonical :
    entryPayload p e ≠ (Json.object (entryMembersV2 p' e' o' n' r')).canonical := by
  intro h
  obtain ⟨L, hL, hperm⟩ := Json.canonical_object_perm (entryMembersV2_nodup p' e' o' n' r')
    (entryMembersV2_protoFree p' e' o' n' r')
  have hlen := congrArg List.length (Json.object.inj (h.trans hL))
  rw [hperm.length_eq, List.length_map] at hlen
  exact absurd (show 8 = 11 from hlen) (by decide)

variable {p p' e e' o o' n n' r r'}

/-- The canonical payload determines every field: the values of the two JSON
columns in canonical form, the others outright. -/
theorem entryMembersV2_injective
    (h : (Json.object (entryMembersV2 p e o n r)).canonical =
      (Json.object (entryMembersV2 p' e' o' n' r')).canonical) :
    p = p' ∧ e = e' ∧ o.canonical = o'.canonical ∧ n.canonical = n'.canonical ∧ r = r' := by
  have field : ∀ (i : ℕ) (key : JsString) (v w : Json),
      (entryMembersV2 p e o n r)[i]? = some (key, v) →
      (entryMembersV2 p' e' o' n' r')[i]? = some (key, w) → v.canonical = w.canonical :=
    fun i key v w hv hw => Json.canonical_value_eq (entryMembersV2_nodup p e o n r)
      (entryMembersV2_nodup p' e' o' n' r') (entryMembersV2_protoFree p e o n r)
      (entryMembersV2_protoFree p' e' o' n' r') h
      (List.mem_of_getElem? hv) (List.mem_of_getElem? hw)
  have hp := Json.string.inj (field 0 _ _ _ rfl rfl)
  have horg := Json.string.inj (field 1 _ _ _ rfl rfl)
  have htype := Json.string.inj (field 2 _ _ _ rfl rfl)
  have hid := Json.string.inj (field 3 _ _ _ rfl rfl)
  have haction := Json.string.inj (field 4 _ _ _ rfl rfl)
  have hactor := field 5 _ _ _ rfl rfl
  have hcorr := Json.string.inj (field 6 _ _ _ rfl rfl)
  have hdate := field 7 _ _ _ rfl rfl
  have hreason := field 10 _ _ _ rfl rfl
  rw [canonical_orNull, canonical_orNull] at hactor hreason
  refine ⟨hp, ?_, field 8 _ _ _ rfl rfl, field 9 _ _ _ rfl rfl, orNull_injective hreason⟩
  obtain ⟨org, type, id, action, actor, corr, date⟩ := e
  obtain ⟨org', type', id', action', actor', corr', date'⟩ := e'
  obtain rfl : org = org' := horg
  obtain rfl : type = type' := htype
  obtain rfl : id = id' := hid
  obtain rfl : action = action' := haction
  obtain rfl := orNull_injective hactor
  obtain rfl : corr = corr' := hcorr
  obtain rfl := JsDate.toJson_injective hdate
  rfl

/-- The canonical payload sees the JSON columns in canonical form only. -/
theorem entryMembersV2_canonical_congr (ho : o.canonical = o'.canonical)
    (hn : n.canonical = n'.canonical) :
    (Json.object (entryMembersV2 p e o n r)).canonical =
      (Json.object (entryMembersV2 p e o' n' r)).canonical := by
  refine Json.canonical_object_congr (entryMembersV2_nodup p e o n r) (List.Perm.of_eq ?_)
  simp only [entryMembersV2, List.map_cons, List.map_nil, Json.canonicalMember, ho, hn]

end Members

theorem nullish_toJs (j : Json) : nullish j.toJs = j.toJs := by
  cases j <;> rfl

section Binding

variable {sha256 : List Char → JsString}

/-- The version 2 hash of a row, through the JSON form of its payload. -/
theorem computeEntryHashV2_row (p : JsString) (row : AuditLogEntry) :
    computeEntryHashV2 sha256 p row.hashableV2 =
      sha256 (Json.object (entryMembersV2 p row.hashable
        (AuditLogEntry.columnJson row.oldValue) (AuditLogEntry.columnJson row.newValue)
        row.reason)).canonical.stringify := by
  rw [← Json.canonicalStringify_toJs]
  simp only [computeEntryHashV2, entryPayloadV2, AuditLogEntry.hashableV2, nullish_toJs]
  rfl

/-! ## Rows -/

namespace AuditLogEntry

/-- What the hash of a sealed row is the hash of. -/
theorem Sealed.cases {row : AuditLogEntry} (h : row.Sealed sha256) :
    (row.hashVersion = 1 ∧ row.entryHash = sha256 (entryPayload row.prevHash row.hashable).stringify) ∨
      (row.hashVersion = 2 ∧ row.entryHash =
        sha256 (Json.object (entryMembersV2 row.prevHash row.hashable (columnJson row.oldValue)
          (columnJson row.newValue) row.reason)).canonical.stringify) := by
  simp only [Sealed, recomputed] at h
  split_ifs at h with h₁ h₂
  · exact .inl ⟨h₁, (Option.some.inj h).symm⟩
  · refine .inr ⟨h₂, ?_⟩
    rw [← Option.some.inj h, computeEntryHashV2_row]

/-- A sealed row has a hash that SHA-256 computed. -/
theorem Sealed.exists_text {row : AuditLogEntry} (h : row.Sealed sha256) :
    ∃ text, row.entryHash = sha256 text := by
  rcases h.cases with ⟨-, h⟩ | ⟨-, h⟩
  · exact ⟨_, h⟩
  · exact ⟨_, h⟩

/-- **Equal hashes bind equal rows**, as far as their version covers them. -/
theorem Sealed.binds (hinj : Function.Injective sha256) {a b : AuditLogEntry}
    (ha : a.Sealed sha256) (hb : b.Sealed sha256) (h : a.entryHash = b.entryHash) :
    a.hashVersion = b.hashVersion ∧ a.prevHash = b.prevHash ∧ a.hashable = b.hashable ∧
      (a.hashVersion = 2 →
        (columnJson a.oldValue).canonical = (columnJson b.oldValue).canonical ∧
        (columnJson a.newValue).canonical = (columnJson b.newValue).canonical ∧
        a.reason = b.reason) := by
  rcases ha.cases with ⟨va, ha⟩ | ⟨va, ha⟩ <;> rcases hb.cases with ⟨vb, hb⟩ | ⟨vb, hb⟩ <;>
    have htext := Json.stringify_injective (hinj (ha.symm.trans (h.trans hb)))
  · obtain ⟨hprev, hfields⟩ := entryPayload_injective htext
    refine ⟨va.trans vb.symm, hprev, hfields, fun v₂ => ?_⟩
    exact absurd (va.symm.trans v₂) (by decide)
  · exact absurd htext (entryPayload_ne_canonical _ _ _ _ _ _ _)
  · exact absurd htext.symm (entryPayload_ne_canonical _ _ _ _ _ _ _)
  · obtain ⟨hprev, hfields, hold, hnew, hreason⟩ := entryMembersV2_injective htext
    exact ⟨va.trans vb.symm, hprev, hfields, fun _ => ⟨hold, hnew, hreason⟩⟩

/-- Two rows agree on everything their hash version covers. -/
structure Agrees (a b : AuditLogEntry) : Prop where
  hashVersion : a.hashVersion = b.hashVersion
  prevHash : a.prevHash = b.prevHash
  entryHash : a.entryHash = b.entryHash
  organizationId : a.organizationId = b.organizationId
  entityType : a.entityType = b.entityType
  entityId : a.entityId = b.entityId
  action : a.action = b.action
  actorUserId : a.actorUserId = b.actorUserId
  correlationId : a.correlationId = b.correlationId
  createdAt : a.createdAt = b.createdAt
  /-- version 2 covers the payload too; an absent value counts as `null` -/
  oldValue : a.hashVersion = 2 → (columnJson a.oldValue).Same (columnJson b.oldValue)
  newValue : a.hashVersion = 2 → (columnJson a.newValue).Same (columnJson b.newValue)
  reason : a.hashVersion = 2 → a.reason = b.reason

/-- No object in the JSON columns of a row has `__proto__` among its keys. -/
def ProtoFree (row : AuditLogEntry) : Prop :=
  (columnJson row.oldValue).protoFree ∧ (columnJson row.newValue).protoFree

instance (row : AuditLogEntry) : Decidable row.ProtoFree :=
  inferInstanceAs (Decidable (_ ∧ _))

theorem uniqueKeys_columnJson (column : Option JsonData) : (columnJson column).uniqueKeys := by
  rcases column with _ | d
  · rfl
  · exact d.unique

theorem Sealed.agrees (hinj : Function.Injective sha256) {a b : AuditLogEntry}
    (ha : a.Sealed sha256) (hb : b.Sealed sha256) (pa : a.ProtoFree) (pb : b.ProtoFree)
    (h : a.entryHash = b.entryHash) : a.Agrees b := by
  obtain ⟨hversion, hprev, hfields, hpayload⟩ := ha.binds hinj hb h
  obtain ⟨horg, htype, hid, haction, hactor, hcorr, hdate⟩ := HashableEntry.mk.inj hfields
  refine ⟨hversion, hprev, h, horg, htype, hid, haction, hactor, hcorr, hdate, ?_, ?_, ?_⟩
  · intro v₂
    exact Json.same_of_canonical_eq (uniqueKeys_columnJson _) (uniqueKeys_columnJson _) pa.1 pb.1
      (hpayload v₂).1
  · intro v₂
    exact Json.same_of_canonical_eq (uniqueKeys_columnJson _) (uniqueKeys_columnJson _) pa.2 pb.2
      (hpayload v₂).2.1
  · intro v₂
    exact (hpayload v₂).2.2

end AuditLogEntry

end Binding

/-! ## A short history -/

namespace Sample

theorem char_toNat_lt (c : Char) : c.toNat < 0x110000 := by
  have h := c.valid
  simp only [UInt32.isValidChar, Nat.isValidChar] at h
  show c.val.toNat < _
  omega

/-- A text as a string, two units a character. -/
def doubled : List Char → JsString
  | [] => []
  | c :: text => (c.toNat / 65536).toUInt16 :: (c.toNat % 65536).toUInt16 :: doubled text

theorem doubled_injective {a b : List Char} (h : doubled a = doubled b) : a = b := by
  induction a generalizing b with
  | nil =>
    rcases b with _ | ⟨d, b⟩
    · rfl
    · exact absurd h (List.cons_ne_nil _ _).symm
  | cons c a ih =>
    rcases b with _ | ⟨d, b⟩
    · exact absurd h (List.cons_ne_nil _ _)
    · simp only [doubled, List.cons.injEq] at h
      obtain ⟨hhi, hlo, hrest⟩ := h
      have hcd : c = d := by
        have hhi := congrArg UInt16.toNat hhi
        have hlo := congrArg UInt16.toNat hlo
        simp only [Nat.toUInt16_eq, UInt16.toNat_ofNat'] at hhi hlo
        have hc := char_toNat_lt c
        have hd := char_toNat_lt d
        rw [← Char.toNat_inj]
        omega
      rw [hcd, ih hrest]

/-- A text as a string no digest begins like. -/
def mark (text : List Char) : JsString := 0 :: doubled text

/-- A hash function known at some texts only: the others are marked. -/
def knownAt (digests : List (List Char × JsString)) (text : List Char) : JsString :=
  (digests.lookup text).getD (mark text)

theorem mem_of_lookup {digests : List (List Char × JsString)} {text : List Char} {d : JsString}
    (h : digests.lookup text = some d) : (text, d) ∈ digests := by
  obtain ⟨before, after, rfl, -⟩ := List.lookup_eq_some_iff.mp h
  simp

theorem knownAt_cases (digests : List (List Char × JsString)) (text : List Char) :
    (text, knownAt digests text) ∈ digests ∨ knownAt digests text = mark text := by
  simp only [knownAt]
  rcases h : digests.lookup text with _ | d
  · exact .inr rfl
  · exact .inl (mem_of_lookup h)

theorem knownAt_injective {digests : List (List Char × JsString)}
    (hnodup : (digests.map Prod.snd).Nodup) (hzero : ∀ m ∈ digests, m.2.head? ≠ some 0) :
    Function.Injective (knownAt digests) := by
  intro a b h
  rcases knownAt_cases digests a with ha | ha <;> rcases knownAt_cases digests b with hb | hb
  · rw [h] at ha
    exact congrArg Prod.fst (List.inj_on_of_nodup_map hnodup ha hb rfl)
  · rw [h, hb] at ha
    exact absurd rfl (hzero _ ha)
  · rw [← h, ha] at hb
    exact absurd rfl (hzero _ hb)
  · exact doubled_injective (List.cons.inj (ha.symm.trans (h.trans hb))).2

/-- A snapshot of an expense, its keys in one order or the other. -/
def snapshot (status : String) (amountFirst : Bool) : JsonData :=
  if amountFirst then
    ⟨.object [(js "amount", .string (js "1000")), (js "status", .string (js status))], by rfl⟩
  else
    ⟨.object [(js "status", .string (js status)), (js "amount", .string (js "1000"))], by rfl⟩

/-- A call for an action on one expense. -/
def auditCall (what : String) (oldValue newValue : Option JsonData) (now : JsDate) : RecordCall where
  input :=
    { organizationId := js "org-1"
      entityType := js "Expense"
      entityId := js "expense-1"
      action := js what
      actorUserId := some (js "user-11")
      oldValue := oldValue
      newValue := newValue
      reason := none
      correlationId := js "request-7"
      requestId := none
      ipAddress := none
      userAgent := none
      source := js "http" }
  now := now
  id := js what
  pick := 0

/-- 2026-01-15T09:30:00.000Z, or some milliseconds later. -/
def halfPastNine (ms : Fin 1000) : JsDate :=
  ⟨1768469400000 + ms.val, by omega⟩

/-- The expense is created. -/
def creation : RecordCall :=
  auditCall "ExpenseCreated" none (some (snapshot "draft" false)) (halfPastNine 0)

/-- The expense is submitted, some milliseconds after its creation. -/
def submission (ms : Fin 1000) : RecordCall :=
  auditCall "ExpenseSubmitted" (some (snapshot "draft" false))
    (some (snapshot "pending_approval" false)) (halfPastNine ms)

/-- The digest of the creation at the head of a chain. -/
def creationHash : JsString := js "da4c2d70e094f79501104b101e72ad7b884fe8ff17709d495b2d5fb7cb2440fc"

/-- The payloads of these calls, with their SHA-256 digests. -/
def digests : List (List Char × JsString) := [
  (canonicalStringify (entryPayloadV2 genesisHash creation.hashable), creationHash),
  (canonicalStringify (entryPayloadV2 creationHash (submission 0).hashable),
    js "8a56f334e6f667b6459284162bf52b89e809e733495cecc7de1891e96ad5e3ab"),
  (canonicalStringify (entryPayloadV2 creationHash (submission 1).hashable),
    js "09946a959b6e8fcf0ba29c8940e617ac923fb18bc6bdd9b0eb6a3a491c9efb51"),
  ((entryPayload creationHash (submission 1).hashable.toHashableEntry).stringify,
    js "9e1816002cc7805fb960da6f0173703d01c9e5013ac1b86406e2360dc8982960")]

/-- SHA-256 at these payloads. -/
def sha256 : List Char → JsString := knownAt digests

theorem sha256_injective : Function.Injective sha256 :=
  knownAt_injective (by decide +kernel) (by decide +kernel)

theorem sha256_ne_genesisHash (text : List Char) : sha256 text ≠ genesisHash := by
  intro h
  rcases knownAt_cases digests text with hmem | hmark
  · have hne : genesisHash ∉ digests.map Prod.snd := by decide +kernel
    exact hne (h ▸ List.mem_map_of_mem hmem)
  · rw [show knownAt digests text = genesisHash from h] at hmark
    exact absurd (List.cons.inj hmark).1 (by decide)

/-- The submission as a version 1 row behind the creation, with any new value. -/
def oldSubmission (newValue : Option JsonData) : AuditLogEntry :=
  { (submission 1).entry sha256 id creationHash with
    newValue := newValue
    entryHash := js "9e1816002cc7805fb960da6f0173703d01c9e5013ac1b86406e2360dc8982960"
    hashVersion := 1 }

end Sample

/-! ## Histories -/

/-- **A verified history cannot be rewritten behind its last hash**: two lists of
rows that the verifier accepts and that end in the same hash agree, row by row,
on everything the hashes cover. -/
theorem histories_agree (sha256 : List Char → JsString) (hinj : Function.Injective sha256)
    (hgenesis : ∀ text, sha256 text ≠ genesisHash) (organizationId : JsString)
    (rows rows' : List AuditLogEntry) (hproto : ∀ row ∈ rows, row.ProtoFree)
    (hproto' : ∀ row ∈ rows', row.ProtoFree) (hvalid : (verify sha256 organizationId rows).valid)
    (hvalid' : (verify sha256 organizationId rows').valid)
    (hlast : rows.getLast?.map (·.entryHash) = rows'.getLast?.map (·.entryHash)) :
    rows.length = rows'.length ∧ List.Forall₂ AuditLogEntry.Agrees rows rows' := by
  obtain ⟨hlinked, hsealed⟩ := verify_valid_iff.mp hvalid
  obtain ⟨hlinked', hsealed'⟩ := verify_valid_iff.mp hvalid'
  have hne : ∀ row : AuditLogEntry, row.Sealed sha256 → row.entryHash ≠ genesisHash := by
    intro row hrow
    obtain ⟨text, htext⟩ := hrow.exists_text
    rw [htext]
    exact hgenesis text
  have hagree : List.Forall₂ AuditLogEntry.Agrees rows rows' := by
    refine hlinked.agree ?_ (fun r hr => hne r (hsealed r hr)) (fun r hr => hne r (hsealed' r hr))
      hlinked' ?_
    · intro r hr r' hr' h
      have := (hsealed r hr).agrees hinj (hsealed' r' hr') (hproto r hr) (hproto' r' hr') h
      exact ⟨this.prevHash, this⟩
    · rw [chainTip_eq_getLast?, chainTip_eq_getLast?]
      exact congrArg (·.getD genesisHash) hlast
  exact ⟨hagree.length_eq, hagree⟩

/-- A version 2 row with its keys in another order, and a version 1 row with another
new value, which its hash does not cover. -/
theorem histories_agree_sample :
    List.Forall₂ AuditLogEntry.Agrees
      [Sample.creation.entry Sample.sha256 id genesisHash, Sample.oldSubmission none]
      [{ Sample.creation.entry Sample.sha256 id genesisHash with
          newValue := some (Sample.snapshot "draft" true) },
        Sample.oldSubmission (some (Sample.snapshot "cancelled" true))] :=
  (histories_agree Sample.sha256 Sample.sha256_injective Sample.sha256_ne_genesisHash (js "org-1")
    _ _ (by decide +kernel) (by decide +kernel) (by decide +kernel) (by decide +kernel)
    (by decide +kernel)).2

end RatelPlatform
