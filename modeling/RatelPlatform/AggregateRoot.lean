import RatelPlatform.JsonObjects
import RatelPlatform.SharedKernel

/-!
# What aggregates record of their changes

`recordEvent` compares the state of an aggregate with its state at the event before, or at its
load, and adds to the event what differs. The audit log keeps the old values. Over any run of
an aggregate these differences telescope: applied one after the other to the state that was
loaded they give the state at the last event (`AggregateClass.telescopes`).
-/

namespace RatelPlatform

/-! ## Subclasses of `AggregateRoot` -/

/-- The members every object inherits from `Object.prototype`. -/
def inheritedNames : List JsString :=
  [js "constructor", js "__defineGetter__", js "__defineSetter__", js "hasOwnProperty",
    js "__lookupGetter__", js "__lookupSetter__", js "isPrototypeOf", js "propertyIsEnumerable",
    js "toString", js "valueOf", js "__proto__", js "toLocaleString"]

/-- A subclass of `AggregateRoot` whose instances have the state `S`. -/
structure AggregateClass (S : Type) where
  /-- `snapshotState`: the members of the object it returns -/
  snapshotState : S → List (JsString × JsValue)
  /-- an object has one member under a key -/
  nodup : ∀ s, ((snapshotState s).map Prod.fst).Nodup
  /-- no field is called like what is inherited, so a field an object lacks is `undefined` -/
  named : ∀ s, ∀ m ∈ snapshotState s, m.1 ∉ inheritedNames

/-- The members of a normalized state. -/
abbrev Snapshot := List (JsString × Json)

/-- `snapshot[key] ?? null` -/
def fieldValue (snapshot : Snapshot) (key : JsString) : Json :=
  (ownMember snapshot key).getD .null

/-- `FieldChange` -/
structure FieldChange where
  «from» : Json
  «to» : Json

/-- The changes of an event, by field. -/
abbrev Changes := List (JsString × FieldChange)

/-- An event as the factories make it: nothing in its payload is called `changes`. -/
structure NewEvent extends DomainEvent where
  plain : "changes" ∉ payload.map Prod.fst

/-- An event as it is recorded. -/
structure RecordedEvent where
  event : NewEvent
  /-- what was put into the payload as `changes` -/
  changes : Option Changes

/-- What `AggregateRoot` keeps of an instance. -/
structure AggregateRoot (S : Type) where
  state : S
  domainEvents : List RecordedEvent
  baselineState : Option Snapshot

/-- What happens to an instance: its state changes in any way, or an event is recorded. -/
inductive Step (S : Type)
  | mutate (f : S → S)
  | record (event : NewEvent)

/-- What the loop of `diffAgainstBaseline` assigns, in its order. -/
def changedFields (baseline current : Snapshot) : Changes :=
  -- the keys of both sides: a field that appears or disappears counts as changed
  (baseline.map Prod.fst ++ current.map Prod.fst).eraseDups.filterMap fun key =>
    if canonicalStringify (fieldValue baseline key).toJs =
        canonicalStringify (fieldValue current key).toJs then none
    else some (key, ⟨fieldValue baseline key, fieldValue current key⟩)

/-- The changes from one snapshot to another, or `null`. -/
def changesBetween (baseline current : Snapshot) : Option Changes :=
  let changes := assignAll (changedFields baseline current)
  if changes.isEmpty then none else some changes

namespace AggregateClass

variable {S : Type} (C : AggregateClass S)

/-- `normalizedState` -/
def normalizedState (s : S) : Snapshot :=
  match toJsonSafe (.object (C.snapshotState s)) with
  | .object members => members
  | _ => []

/-- `new`: nothing was recorded, and there is no baseline. -/
def create (s : S) : AggregateRoot S := ⟨s, [], none⟩

/-- `captureBaseline` -/
def captureBaseline (a : AggregateRoot S) : AggregateRoot S :=
  { a with baselineState := some (C.normalizedState a.state) }

/-- `reconstitute` -/
def reconstitute (s : S) : AggregateRoot S := C.captureBaseline (create s)

/-- `diffAgainstBaseline` -/
def diffAgainstBaseline (a : AggregateRoot S) : Option Changes × AggregateRoot S :=
  match a.baselineState with
  | none => (none, a)
  | some baseline =>
    let current := C.normalizedState a.state
    -- the baseline advances even when nothing has changed
    (changesBetween baseline current, { a with baselineState := some current })

/-- `recordEvent` -/
def recordEvent (a : AggregateRoot S) (event : NewEvent) : AggregateRoot S :=
  let (changes, a) := C.diffAgainstBaseline a
  { a with domainEvents := a.domainEvents ++ [⟨event, changes⟩] }

/-- One step of an instance. -/
def next (a : AggregateRoot S) : Step S → AggregateRoot S
  | .mutate f => { a with state := f a.state }
  | .record event => C.recordEvent a event

/-- Any number of steps. -/
def run (a : AggregateRoot S) (steps : List (Step S)) : AggregateRoot S := steps.foldl C.next a

end AggregateClass

/-! ## The audit log -/

/-- The changes as a JSON object. -/
def Changes.toJson (changes : Changes) : Json :=
  .object (changes.map fun m => (m.1, .object [(js "from", m.2.from), (js "to", m.2.to)]))

/-- `payload.changes` -/
def RecordedEvent.changesMember (e : RecordedEvent) : Option Json := e.changes.map Changes.toJson

/-- `extractOldValue` of a payload with these `changes`. -/
def extractOldValue : Option Json → Option Snapshot
  | some (.object changes) =>
    let oldValue := assignAll (changes.filterMap fun m =>
      match m.2 with
      | .object change => (ownMember change (js "from")).map (Prod.mk m.1)
      | _ => none)
    if oldValue.isEmpty then none else some oldValue
  | _ => none

/-! ## What is to be shown -/

/-- Every field is set to its `to`. -/
def Changes.apply (changes : Changes) (snapshot : Snapshot) : Snapshot :=
  assignOnto snapshot (changes.map fun m => (m.1, m.2.to))

/-- The changes of the events, one after the other. -/
def replay (snapshot : Snapshot) (events : List RecordedEvent) : Snapshot :=
  events.foldl (fun snapshot e => Changes.apply (e.changes.getD []) snapshot) snapshot

/-- The fields of the changes with their `from`. -/
def Changes.oldValue (changes : Changes) : Snapshot := changes.map fun m => (m.1, m.2.from)

/-- The changes are those from one snapshot to another. -/
structure Describes (before after : Snapshot) (changes : Option Changes) : Prop where
  /-- no changes are none, not an empty object -/
  nonempty : changes ≠ some []
  /-- a field is listed once -/
  nodup : ((changes.getD []).map Prod.fst).Nodup
  /-- it is listed exactly when its canonical text differs, with its old and its new value -/
  mem_iff : ∀ key change, (key, change) ∈ changes.getD [] ↔
    canonicalStringify (fieldValue before key).toJs ≠
        canonicalStringify (fieldValue after key).toJs ∧
      change = ⟨fieldValue before key, fieldValue after key⟩

/-- The events tell how a snapshot changes, one after the other. -/
inductive Recount : Snapshot → List Snapshot → List RecordedEvent → Prop
  | nil (before : Snapshot) : Recount before [] []
  | cons {before after : Snapshot} {snapshots : List Snapshot} {e : RecordedEvent}
      {events : List RecordedEvent} : Describes before after e.changes →
      Recount after snapshots events → Recount before (after :: snapshots) (e :: events)

/-- The states in which the steps record an event. -/
def recordedStates {S : Type} (s : S) : List (Step S) → List S
  | [] => []
  | .mutate f :: steps => recordedStates (f s) steps
  | .record _ :: steps => s :: recordedStates s steps

variable {S : Type}

/-- **The changes telescope** over the steps of an instance with the state `s`. -/
structure AggregateClass.Telescopes (C : AggregateClass S) (s : S) (steps : List (Step S)) :
    Prop where
  /-- the events tell how the snapshot changes from one to the next -/
  recount : Recount (C.normalizedState s) ((recordedStates s steps).map C.normalizedState)
    (C.run (C.reconstitute s) steps).domainEvents
  /-- their changes lead from the first snapshot to that of the last event, field by field -/
  replayed : ∀ key, (fieldValue (replay (C.normalizedState s)
      (C.run (C.reconstitute s) steps).domainEvents) key).Same
    (fieldValue (C.normalizedState ((recordedStates s steps).getLastD s)) key)
  /-- and to the very snapshot where all states have the same fields -/
  replayed_object : (∀ t t' : S, ∀ key, key ∈ (C.snapshotState t).map Prod.fst ↔
      key ∈ (C.snapshotState t').map Prod.fst) →
    (Json.object (replay (C.normalizedState s)
      (C.run (C.reconstitute s) steps).domainEvents)).Same
      (.object (C.normalizedState ((recordedStates s steps).getLastD s)))
  /-- the old value in the audit log is what the changes have as `from`, however `jsonb` orders
  the payload -/
  oldValues : ∀ e ∈ (C.run (C.reconstitute s) steps).domainEvents, ∀ stored,
    Option.Rel Json.Same e.changesMember stored →
      Option.Rel (fun old value => (Json.object old).Same (.object value))
        (e.changes.map Changes.oldValue) (extractOldValue stored)

/-! ## Snapshots -/

/-- The values of the fields are projections. -/
def Snapshot.Projected (snapshot : Snapshot) : Prop :=
  ∀ key, (fieldValue snapshot key).uniqueKeys ∧ (fieldValue snapshot key).protoFree

theorem fieldValue_of_mem {snapshot : Snapshot} (hnodup : (snapshot.map Prod.fst).Nodup)
    {m : JsString × Json} (hm : m ∈ snapshot) : fieldValue snapshot m.1 = m.2 := by
  rw [fieldValue, (ownMember_eq_some hnodup).mpr hm]
  rfl

theorem fieldValue_of_not_mem {snapshot : Snapshot} {key : JsString}
    (h : key ∉ snapshot.map Prod.fst) : fieldValue snapshot key = .null := by
  rw [fieldValue, ownMember_eq_none.mpr h]
  rfl

/-- Objects with the same fields and values are the same. -/
theorem same_of_fields {ms ns : Snapshot} (hms : (ms.map Prod.fst).Nodup)
    (hns : (ns.map Prod.fst).Nodup)
    (hkeys : ∀ key, key ∈ ms.map Prod.fst ↔ key ∈ ns.map Prod.fst)
    (h : ∀ key, (fieldValue ms key).Same (fieldValue ns key)) :
    (Json.object ms).Same (.object ns) := by
  have hfst : (ms.map fun m => (m.1, fieldValue ns m.1)).map Prod.fst = ms.map Prod.fst := by
    rw [List.map_map]
    rfl
  have hmembers : List.Forall₂ (Json.SameMember Json.Same) ms
      (ms.map fun m => (m.1, fieldValue ns m.1)) := by
    refine List.forall₂_map_right_iff.mpr (List.forall₂_same.mpr fun m hm => ?_)
    have hsame := h m.1
    rw [fieldValue_of_mem hms hm] at hsame
    exact .mk m.1 hsame
  refine .object hmembers ((List.perm_ext_iff_of_nodup ?_ hns.of_map).mpr fun n => ?_)
  · rw [← hfst] at hms
    exact hms.of_map
  · refine ⟨?_, ?_⟩
    · intro hn
      obtain ⟨m, hm, rfl⟩ := List.mem_map.mp hn
      obtain ⟨n, hn, hkey⟩ := List.mem_map.mp ((hkeys m.1).mp (List.mem_map_of_mem hm))
      rw [← hkey, fieldValue_of_mem hns hn]
      exact hn
    · intro hn
      obtain ⟨m, hm, hkey⟩ := List.mem_map.mp ((hkeys n.1).mpr (List.mem_map_of_mem hn))
      refine List.mem_map.mpr ⟨m, hm, ?_⟩
      rw [hkey, fieldValue_of_mem hns hn]

namespace AggregateClass

variable (C : AggregateClass S)

theorem normalizedState_eq (s : S) :
    C.normalizedState s = assignAll (safeEntries (C.snapshotState s)) := by
  rw [normalizedState, toJsonSafe]

theorem nodup_normalizedState (s : S) : ((C.normalizedState s).map Prod.fst).Nodup := by
  rw [normalizedState_eq]
  exact keys_assignAll_nodup _

theorem protoKey_not_mem_normalizedState (s : S) :
    protoKey ∉ (C.normalizedState s).map Prod.fst := by
  rw [normalizedState_eq]
  exact protoKey_not_mem_assignAll _

/-- A normalized state has the fields of the state. -/
theorem mem_keys_normalizedState (s : S) (key : JsString) :
    key ∈ (C.normalizedState s).map Prod.fst ↔ key ∈ (C.snapshotState s).map Prod.fst := by
  rw [normalizedState_eq, mem_keys_assignAll, map_fst_safeEntries, and_iff_left_iff_imp]
  rintro hkey rfl
  obtain ⟨m, hm, hproto⟩ := List.mem_map.mp hkey
  exact C.named s m hm (hproto ▸ by decide)

theorem projected_normalizedState (s : S) : (C.normalizedState s).Projected := by
  have hunique := uniqueKeys_toJsonSafe (.object (C.snapshotState s))
  have hproto := protoFree_toJsonSafe (.object (C.snapshotState s))
  rw [toJsonSafe, ← normalizedState_eq] at hunique hproto
  intro key
  by_cases hkey : key ∈ (C.normalizedState s).map Prod.fst
  · obtain ⟨m, hm, rfl⟩ := List.mem_map.mp hkey
    rw [fieldValue_of_mem (C.nodup_normalizedState s) hm]
    exact ⟨(Json.everyObject_object.mp hunique).2 m hm, (Json.everyObject_object.mp hproto).2 m hm⟩
  · rw [fieldValue_of_not_mem hkey]
    exact ⟨rfl, rfl⟩

end AggregateClass

/-! ## One event -/

variable {before after : Snapshot}

theorem mem_changedFields {key : JsString} {change : FieldChange} :
    (key, change) ∈ changedFields before after ↔
      canonicalStringify (fieldValue before key).toJs ≠
          canonicalStringify (fieldValue after key).toJs ∧
        change = ⟨fieldValue before key, fieldValue after key⟩ := by
  rw [changedFields, List.mem_filterMap]
  refine ⟨?_, ?_⟩
  · rintro ⟨key', -, hchange⟩
    split_ifs at hchange with htext
    obtain ⟨rfl, rfl⟩ := Prod.mk.inj (Option.some.inj hchange)
    exact ⟨htext, rfl⟩
  · rintro ⟨htext, rfl⟩
    refine ⟨key, List.mem_eraseDups.mpr ?_, if_neg htext⟩
    by_contra hkey
    obtain ⟨hbefore, hafter⟩ := not_or.mp (List.mem_append.not.mp hkey)
    rw [fieldValue_of_not_mem hbefore, fieldValue_of_not_mem hafter] at htext
    exact htext rfl

theorem nodup_changedFields (before after : Snapshot) :
    ((changedFields before after).map Prod.fst).Nodup := by
  rw [changedFields, List.map_filterMap]
  refine (nodup_eraseDups _).filterMap fun key key' k hk hk' => ?_
  have hfst : ∀ key : JsString, k ∈ Option.map Prod.fst
      (if canonicalStringify (fieldValue before key).toJs =
          canonicalStringify (fieldValue after key).toJs then none
        else some (key, FieldChange.mk (fieldValue before key) (fieldValue after key))) →
      key = k := by
    intro key h
    split_ifs at h
    · cases h
    · exact Option.some.inj h
  rw [hfst key hk, hfst key' hk']

theorem assignAll_changedFields (hbefore : protoKey ∉ before.map Prod.fst)
    (hafter : protoKey ∉ after.map Prod.fst) :
    (assignAll (changedFields before after)).Perm (changedFields before after) := by
  refine (assignAll_perm (nodup_changedFields before after)).trans (.of_eq ?_)
  refine List.filter_eq_self.mpr fun m hm => decide_eq_true fun hproto => ?_
  refine (mem_changedFields.mp hm).1 ?_
  rw [hproto, fieldValue_of_not_mem hbefore, fieldValue_of_not_mem hafter]

/-- The changes that are recorded are those from the baseline to the current state. -/
theorem describes_changesBetween (hbefore : protoKey ∉ before.map Prod.fst)
    (hafter : protoKey ∉ after.map Prod.fst) :
    Describes before after (changesBetween before after) := by
  have hgetD : (changesBetween before after).getD [] = assignAll (changedFields before after) := by
    simp only [changesBetween]
    split_ifs with hempty
    · exact (List.isEmpty_iff.mp hempty).symm
    · rfl
  refine ⟨fun h => ?_, ?_, fun key change => ?_⟩
  · simp only [changesBetween] at h
    split_ifs at h with hempty
    exact hempty (List.isEmpty_iff.mpr (Option.some.inj h))
  · rw [hgetD]
    exact keys_assignAll_nodup _
  · rw [hgetD, (assignAll_changedFields hbefore hafter).mem_iff, mem_changedFields]

/-! ## Applying the changes -/

namespace Describes

variable {changes : Option Changes}

/-- A field is listed exactly when its canonical form differs. -/
theorem canonical_eq_of_not_mem (h : Describes before after changes) {key : JsString}
    (hkey : key ∉ (changes.getD []).map Prod.fst) :
    (fieldValue before key).canonical = (fieldValue after key).canonical := by
  by_contra hne
  have htext : canonicalStringify (fieldValue before key).toJs ≠
      canonicalStringify (fieldValue after key).toJs := fun htext =>
    hne (Json.canonicalStringify_eq_iff.mp htext)
  exact hkey (List.mem_map_of_mem ((h.mem_iff key _).mpr ⟨htext, rfl⟩))

theorem protoKey_not_mem (h : Describes before after changes)
    (hbefore : protoKey ∉ before.map Prod.fst) (hafter : protoKey ∉ after.map Prod.fst) :
    protoKey ∉ (changes.getD []).map Prod.fst := by
  intro hmem
  obtain ⟨⟨key, change⟩, hm, rfl : key = protoKey⟩ := List.mem_map.mp hmem
  refine ((h.mem_iff _ change).mp hm).1 ?_
  rw [fieldValue_of_not_mem hbefore, fieldValue_of_not_mem hafter]

/-- After applying the changes a listed field is as it is afterwards, and any other as it was. -/
theorem fieldValue_apply (h : Describes before after changes)
    (hproto : protoKey ∉ (changes.getD []).map Prod.fst) (snapshot : Snapshot) (key : JsString) :
    fieldValue (Changes.apply (changes.getD []) snapshot) key =
      if key ∈ (changes.getD []).map Prod.fst then fieldValue after key
      else fieldValue snapshot key := by
  have hfst : ((changes.getD []).map fun m => (m.1, m.2.to)).map Prod.fst =
      (changes.getD []).map Prod.fst := by
    rw [List.map_map]
    rfl
  rw [fieldValue, Changes.apply, ownMember_assignOnto (hfst ▸ h.nodup) (hfst ▸ hproto)]
  split_ifs with hkey
  · obtain ⟨⟨key, change⟩, hm, rfl⟩ := List.mem_map.mp hkey
    obtain ⟨-, rfl⟩ := (h.mem_iff key change).mp hm
    have hentry : (key, fieldValue after key) ∈ (changes.getD []).map fun m => (m.1, m.2.to) :=
      List.mem_map.mpr ⟨_, hm, rfl⟩
    rw [(ownMember_eq_some (hfst ▸ h.nodup)).mpr hentry]
    rfl
  · rw [ownMember_eq_none.mpr (hfst ▸ hkey)]
    rfl

/-- Whatever had the fields before has them afterwards. -/
theorem canonical_apply (h : Describes before after changes)
    (hproto : protoKey ∉ (changes.getD []).map Prod.fst) {snapshot : Snapshot}
    (hbefore : ∀ key, (fieldValue snapshot key).canonical = (fieldValue before key).canonical)
    (key : JsString) : (fieldValue (Changes.apply (changes.getD []) snapshot) key).canonical =
      (fieldValue after key).canonical := by
  rw [h.fieldValue_apply hproto]
  split_ifs with hkey
  · rfl
  · exact (hbefore key).trans (h.canonical_eq_of_not_mem hkey)

theorem projected_apply (h : Describes before after changes)
    (hproto : protoKey ∉ (changes.getD []).map Prod.fst) {snapshot : Snapshot}
    (hsnapshot : snapshot.Projected) (hafter : after.Projected) :
    Snapshot.Projected (Changes.apply (changes.getD []) snapshot) := by
  intro key
  rw [h.fieldValue_apply hproto]
  split_ifs
  · exact hafter key
  · exact hsnapshot key

/-- Between snapshots with the same fields no field is added. -/
theorem mem_keys_apply (h : Describes before after changes) {snapshot : Snapshot}
    (hsnapshot : ∀ key, key ∈ snapshot.map Prod.fst ↔ key ∈ before.map Prod.fst)
    (hafter : ∀ key, key ∈ before.map Prod.fst ↔ key ∈ after.map Prod.fst) (key : JsString) :
    key ∈ (Changes.apply (changes.getD []) snapshot).map Prod.fst ↔
      key ∈ after.map Prod.fst := by
  have hfst : ((changes.getD []).map fun m => (m.1, m.2.to)).map Prod.fst =
      (changes.getD []).map Prod.fst := by
    rw [List.map_map]
    rfl
  rw [Changes.apply, mem_keys_assignOnto, hfst, hsnapshot, hafter]
  refine or_iff_left_of_imp fun hkey => ?_
  obtain ⟨⟨key, change⟩, hm, rfl⟩ := List.mem_map.mp hkey.1
  by_contra hnot
  refine ((h.mem_iff key change).mp hm).1 ?_
  rw [fieldValue_of_not_mem hnot, fieldValue_of_not_mem fun hmem => hnot ((hafter key).mp hmem)]

end Describes

/-! ## Old values -/

/-- What becomes of matching elements when some are dropped, none is dropped. -/
theorem forall₂_filterMap {α β γ : Type} {R : α → β → Prop} {Q : α → γ → Prop} {g : β → Option γ}
    {xs : List α} {ys : List β} (h : List.Forall₂ R xs ys)
    (hg : ∀ x y, R x y → ∃ z, g y = some z ∧ Q x z) : List.Forall₂ Q xs (ys.filterMap g) := by
  induction h with
  | nil => exact .nil
  | cons hxy _ ih =>
    obtain ⟨z, hz, hQ⟩ := hg _ _ hxy
    rw [List.filterMap_cons_some hz]
    exact .cons hQ ih

theorem map_fst_eq_of_sameMember {ms ns : Snapshot}
    (h : List.Forall₂ (Json.SameMember Json.Same) ms ns) : ms.map Prod.fst = ns.map Prod.fst := by
  induction h with
  | nil => rfl
  | cons hmn _ ih =>
    cases hmn
    rw [List.map_cons, List.map_cons, ih]

/-- A change read back from the payload still has its `from`. -/
theorem from_of_same {change : FieldChange} {value : Json}
    (h : (Json.object [(js "from", change.from), (js "to", change.to)]).Same value) :
    ∃ members w, value = .object members ∧ ownMember members (js "from") = some w ∧
      change.from.Same w := by
  cases h with
  | @object _ ns members hmembers hperm =>
    have hkeys := map_fst_eq_of_sameMember hmembers
    have hnodup : (members.map Prod.fst).Nodup := by
      rw [← (hperm.map Prod.fst).nodup_iff, ← hkeys]
      show [js "from", js "to"].Nodup
      decide
    rcases hmembers with _ | ⟨⟨_, hfrom⟩, _⟩
    exact ⟨members, _, rfl,
      (ownMember_eq_some hnodup).mpr (hperm.mem_iff.mp List.mem_cons_self), hfrom⟩

/-- **The audit log keeps the `from` values**, in whatever order `jsonb` hands them back. -/
theorem extractOldValue_of_same {changes : Changes} (hnonempty : changes ≠ [])
    (hnodup : (changes.map Prod.fst).Nodup) (hproto : protoKey ∉ changes.map Prod.fst)
    {stored : Json} (h : (Changes.toJson changes).Same stored) :
    ∃ oldValue, extractOldValue (some stored) = some oldValue ∧
      (Json.object (Changes.oldValue changes)).Same (.object oldValue) := by
  cases h with
  | @object _ ns ps hmembers hperm =>
    set g : JsString × Json → Option (JsString × Json) := fun m =>
      match m.2 with
      | .object change => (ownMember change (js "from")).map (Prod.mk m.1)
      | _ => none with hg
    have hold : List.Forall₂ (Json.SameMember Json.Same) (Changes.oldValue changes)
        (ns.filterMap g) := by
      refine List.forall₂_map_left_iff.mpr
        (forall₂_filterMap (List.forall₂_map_left_iff.mp hmembers) ?_)
      rintro ⟨key, change⟩ ⟨_, value⟩ ⟨_, hvalue⟩
      obtain ⟨members, w, rfl, hmember, hsame⟩ := from_of_same hvalue
      refine ⟨(key, w), ?_, .mk key hsame⟩
      rw [hg]
      simp only
      rw [hmember]
      rfl
    have hkeys := map_fst_eq_of_sameMember hold
    have hfst : (Changes.oldValue changes).map Prod.fst = changes.map Prod.fst := by
      rw [Changes.oldValue, List.map_map]
      rfl
    have hfilter : (ns.filterMap g).Perm (ps.filterMap g) := hperm.filterMap g
    have hentries : ((ps.filterMap g).map Prod.fst).Perm (changes.map Prod.fst) := by
      rw [← hfst, hkeys]
      exact (hfilter.map Prod.fst).symm
    have hassign : (assignAll (ps.filterMap g)).Perm (ps.filterMap g) := by
      refine (assignAll_perm (hentries.nodup_iff.mpr hnodup)).trans (.of_eq ?_)
      refine List.filter_eq_self.mpr fun m hm => decide_eq_true fun hkey => ?_
      exact hproto (hentries.mem_iff.mp (hkey ▸ List.mem_map_of_mem hm))
    refine ⟨assignAll (ps.filterMap g), ?_, .object hold (hfilter.trans hassign.symm)⟩
    refine if_neg fun hempty => hnonempty ?_
    have hnil := List.isEmpty_iff.mp hempty
    rw [hnil] at hassign
    rw [hassign.nil_eq.symm] at hentries
    exact List.map_eq_nil_iff.mp hentries.nil_eq.symm

/-! ## Runs -/

/-- Events with their changes take any snapshot that has the fields of the first to one that
has those of the last. -/
theorem Recount.canonical_replay {first : Snapshot} {snapshots : List Snapshot}
    {events : List RecordedEvent} (h : Recount first snapshots events)
    (hproto : ∀ s ∈ first :: snapshots, protoKey ∉ s.map Prod.fst)
    {snapshot : Snapshot}
    (hfirst : ∀ key, (fieldValue snapshot key).canonical = (fieldValue first key).canonical)
    (key : JsString) : (fieldValue (replay snapshot events) key).canonical =
      (fieldValue (snapshots.getLastD first) key).canonical := by
  induction h generalizing snapshot with
  | nil => exact hfirst key
  | @cons before after snapshots e events hdescribes _ ih =>
    obtain ⟨hbefore, hproto⟩ := List.forall_mem_cons.mp hproto
    have hafter := hproto after List.mem_cons_self
    rw [List.getLastD_cons]
    exact ih hproto
      (hdescribes.canonical_apply (hdescribes.protoKey_not_mem hbefore hafter) hfirst)

theorem Recount.projected_replay {first : Snapshot} {snapshots : List Snapshot}
    {events : List RecordedEvent} (h : Recount first snapshots events)
    (hproto : ∀ s ∈ first :: snapshots, protoKey ∉ s.map Prod.fst)
    (hprojected : ∀ s ∈ snapshots, s.Projected) {snapshot : Snapshot}
    (hsnapshot : snapshot.Projected) : (replay snapshot events).Projected := by
  induction h generalizing snapshot with
  | nil => exact hsnapshot
  | @cons before after snapshots e events hdescribes _ ih =>
    obtain ⟨hbefore, hproto⟩ := List.forall_mem_cons.mp hproto
    obtain ⟨hprojected, hrest⟩ := List.forall_mem_cons.mp hprojected
    have hafter := hproto after List.mem_cons_self
    exact ih hproto hrest (hdescribes.projected_apply
      (hdescribes.protoKey_not_mem hbefore hafter) hsnapshot hprojected)

theorem Recount.mem_keys_replay {first : Snapshot} {snapshots : List Snapshot}
    {events : List RecordedEvent} (h : Recount first snapshots events)
    (hkeys : ∀ s ∈ snapshots, ∀ key, key ∈ first.map Prod.fst ↔ key ∈ s.map Prod.fst)
    {snapshot : Snapshot}
    (hfirst : ∀ key, key ∈ snapshot.map Prod.fst ↔ key ∈ first.map Prod.fst) (key : JsString) :
    key ∈ (replay snapshot events).map Prod.fst ↔
      key ∈ (snapshots.getLastD first).map Prod.fst := by
  induction h generalizing snapshot with
  | nil => exact hfirst key
  | @cons before after snapshots e events hdescribes _ ih =>
    obtain ⟨hsame, hrest⟩ := List.forall_mem_cons.mp hkeys
    rw [List.getLastD_cons]
    exact ih (fun s hs key => (hsame key).symm.trans (hrest s hs key))
      (hdescribes.mem_keys_apply hfirst hsame)

theorem Recount.describes_of_mem {first : Snapshot} {snapshots : List Snapshot}
    {events : List RecordedEvent} (h : Recount first snapshots events) {e : RecordedEvent}
    (he : e ∈ events) : ∃ before ∈ first :: snapshots, ∃ after ∈ first :: snapshots,
      Describes before after e.changes := by
  induction h with
  | nil => cases he
  | cons hdescribes _ ih =>
    rcases List.mem_cons.mp he with rfl | he
    · exact ⟨_, List.mem_cons_self, _, List.mem_cons_of_mem _ List.mem_cons_self, hdescribes⟩
    · obtain ⟨before, hbefore, after, hafter, h⟩ := ih he
      exact ⟨before, List.mem_cons_of_mem _ hbefore, after, List.mem_cons_of_mem _ hafter, h⟩

theorem nodup_replay (events : List RecordedEvent) {snapshot : Snapshot}
    (h : (snapshot.map Prod.fst).Nodup) : ((replay snapshot events).map Prod.fst).Nodup := by
  induction events generalizing snapshot with
  | nil => exact h
  | cons e events ih => exact ih (keys_assignOnto_nodup h _)

namespace AggregateClass

variable (C : AggregateClass S)

/-- What a run adds to the events, when there is a baseline. -/
theorem recount_run (steps : List (Step S)) {a : AggregateRoot S} {baseline : Snapshot}
    (hbaseline : a.baselineState = some baseline) (hproto : protoKey ∉ baseline.map Prod.fst) :
    ∃ events, (C.run a steps).domainEvents = a.domainEvents ++ events ∧
      Recount baseline ((recordedStates a.state steps).map C.normalizedState) events := by
  induction steps generalizing a baseline with
  | nil => exact ⟨[], (List.append_nil _).symm, .nil baseline⟩
  | cons step steps ih =>
    cases step with
    | mutate f =>
      have hmutated : (C.next a (.mutate f)).baselineState = some baseline := hbaseline
      exact ih hmutated hproto
    | record event =>
      have hdescribes :=
        describes_changesBetween hproto (C.protoKey_not_mem_normalizedState a.state)
      have hnext : C.next a (.record event) = ⟨a.state,
          a.domainEvents ++ [⟨event, changesBetween baseline (C.normalizedState a.state)⟩],
          some (C.normalizedState a.state)⟩ := by
        rw [next, recordEvent, diffAgainstBaseline, hbaseline]
      obtain ⟨events, hevents, hrecount⟩ := ih (congrArg AggregateRoot.baselineState hnext)
        (C.protoKey_not_mem_normalizedState a.state)
      rw [hnext] at hrecount
      refine ⟨⟨event, changesBetween baseline (C.normalizedState a.state)⟩ :: events, ?_,
        .cons hdescribes hrecount⟩
      rw [run, List.foldl_cons]
      refine hevents.trans ?_
      rw [hnext, List.append_assoc]
      rfl

theorem recount_reconstitute (s : S) (steps : List (Step S)) :
    Recount (C.normalizedState s) ((recordedStates s steps).map C.normalizedState)
      (C.run (C.reconstitute s) steps).domainEvents := by
  obtain ⟨events, hevents, hrecount⟩ :=
    C.recount_run steps (show (C.reconstitute s).baselineState = _ from rfl)
      (C.protoKey_not_mem_normalizedState s)
  rw [hevents]
  exact hrecount

/-- Without a baseline no event has changes. -/
theorem changes_run (steps : List (Step S)) {a : AggregateRoot S}
    (hbaseline : a.baselineState = none) (hnone : ∀ e ∈ a.domainEvents, e.changes = none) :
    ∀ e ∈ (C.run a steps).domainEvents, e.changes = none := by
  induction steps generalizing a with
  | nil => exact hnone
  | cons step steps ih =>
    cases step with
    | mutate f => exact ih (a := C.next a (.mutate f)) hbaseline hnone
    | record event =>
      have hnext : C.next a (.record event) =
          ⟨a.state, a.domainEvents ++ [⟨event, none⟩], none⟩ := by
        rw [next, recordEvent, diffAgainstBaseline, hbaseline]
        simp only
        rw [hbaseline]
      refine ih (a := C.next a (.record event)) (by rw [hnext]) ?_
      rw [hnext]
      intro e he
      rcases List.mem_append.mp he with he | he
      · exact hnone e he
      · rw [List.mem_singleton.mp he]

theorem protoKey_not_mem_snapshots (s : S) (states : List S) :
    ∀ n ∈ C.normalizedState s :: states.map C.normalizedState, protoKey ∉ n.map Prod.fst :=
  List.forall_mem_cons.mpr ⟨C.protoKey_not_mem_normalizedState s,
    List.forall_mem_map.mpr fun t _ => C.protoKey_not_mem_normalizedState t⟩

theorem getLastD_snapshots (s : S) (states : List S) :
    (states.map C.normalizedState).getLastD (C.normalizedState s) =
      C.normalizedState (states.getLastD s) := by
  rw [List.getLastD_eq_getLast?, List.getLast?_map, List.getLastD_eq_getLast?, Option.getD_map]

/-- The changes lead to the values of the last event. -/
theorem same_replay (s : S) (steps : List (Step S)) (key : JsString) :
    (fieldValue (replay (C.normalizedState s)
      (C.run (C.reconstitute s) steps).domainEvents) key).Same
        (fieldValue (C.normalizedState ((recordedStates s steps).getLastD s)) key) := by
  have hrecount := C.recount_reconstitute s steps
  have hproto := C.protoKey_not_mem_snapshots s (recordedStates s steps)
  have hprojected := hrecount.projected_replay hproto
    (List.forall_mem_map.mpr fun t _ => C.projected_normalizedState t)
    (C.projected_normalizedState s) key
  have hvalues := C.projected_normalizedState ((recordedStates s steps).getLastD s) key
  have hcanonical := hrecount.canonical_replay hproto (fun _ => rfl) key
  rw [C.getLastD_snapshots] at hcanonical
  exact Json.same_of_canonical_eq hprojected.1 hvalues.1 hprojected.2 hvalues.2 hcanonical

/-- And to the snapshot itself, when no state has other fields than another. -/
theorem same_replay_object (hfields : ∀ t t' : S, ∀ key,
      key ∈ (C.snapshotState t).map Prod.fst ↔ key ∈ (C.snapshotState t').map Prod.fst)
    (s : S) (steps : List (Step S)) :
    (Json.object (replay (C.normalizedState s)
      (C.run (C.reconstitute s) steps).domainEvents)).Same
      (.object (C.normalizedState ((recordedStates s steps).getLastD s))) := by
  refine same_of_fields (nodup_replay _ (C.nodup_normalizedState s)) (C.nodup_normalizedState _)
    (fun key => ?_) (C.same_replay s steps)
  have hkeys := (C.recount_reconstitute s steps).mem_keys_replay
    (List.forall_mem_map.mpr fun t _ key => ?_) (fun _ => Iff.rfl) key
  · rwa [C.getLastD_snapshots] at hkeys
  · rw [mem_keys_normalizedState, mem_keys_normalizedState]
    exact hfields s t key

/-- The audit log has the old values of every event. -/
theorem oldValue_of_mem (s : S) (steps : List (Step S)) {e : RecordedEvent}
    (he : e ∈ (C.run (C.reconstitute s) steps).domainEvents) {stored : Option Json}
    (hstored : Option.Rel Json.Same e.changesMember stored) :
    Option.Rel (fun old value => (Json.object old).Same (.object value))
      (e.changes.map Changes.oldValue) (extractOldValue stored) := by
  have hproto := C.protoKey_not_mem_snapshots s (recordedStates s steps)
  obtain ⟨before, hbefore, after, hafter, hdescribes⟩ :=
    (C.recount_reconstitute s steps).describes_of_mem he
  have hkey := hdescribes.protoKey_not_mem (hproto before hbefore) (hproto after hafter)
  rw [RecordedEvent.changesMember] at hstored
  rcases hchanges : e.changes with _ | changes
  · rw [hchanges] at hstored
    cases hstored
    exact .none
  · rw [hchanges] at hstored hdescribes hkey
    rcases hstored with ⟨hsame⟩
    obtain ⟨oldValue, hold, hsame⟩ := extractOldValue_of_same
      (fun h => hdescribes.nonempty (congrArg some h)) hdescribes.nodup hkey hsame
    rw [hold]
    exact .some hsame

/-- **The changes of the events telescope** from the state that was loaded to that of the last
event, and the audit log has their old values; what is newly created records no changes. -/
theorem telescopes (s : S) (steps : List (Step S)) :
    C.Telescopes s steps ∧ ∀ e ∈ (C.run (create s) steps).domainEvents, e.changes = none where
  left :=
    { recount := C.recount_reconstitute s steps
      replayed := C.same_replay s steps
      replayed_object := fun hfields => C.same_replay_object hfields s steps
      oldValues := fun _ he _ hstored => C.oldValue_of_mem s steps he hstored }
  right := C.changes_run steps rfl fun _ he => absurd he List.not_mem_nil

end AggregateClass

end RatelPlatform
