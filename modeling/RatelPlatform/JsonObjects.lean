import RatelPlatform.CanonicalValues

/-!
# Objects as they are built and read

What an object has under a key after assignments, and what can be said of every object that
`toJsonSafe` builds: no key comes twice and none is `__proto__`, so the canonical text of such
values is the same exactly when the values are.
-/

namespace RatelPlatform

variable {α : Type} {members entries : List (JsString × α)} {key k : JsString} {v : α}

/-! ## Own members -/

/-- The member an object has of its own under a key. -/
def ownMember (members : List (JsString × α)) (key : JsString) : Option α :=
  (members.find? fun m => m.1 = key).map Prod.snd

theorem ownMember_cons (m : JsString × α) (members : List (JsString × α)) (key : JsString) :
    ownMember (m :: members) key = if m.1 = key then some m.2 else ownMember members key := by
  rw [ownMember, List.find?_cons]
  by_cases h : m.1 = key
  · rw [decide_eq_true h, if_pos h]
    rfl
  · rw [decide_eq_false h, if_neg h]
    rfl

theorem ownMember_append (ms ns : List (JsString × α)) (key : JsString) :
    ownMember (ms ++ ns) key = (ownMember ms key).or (ownMember ns key) := by
  rw [ownMember, ownMember, ownMember, List.find?_append, Option.map_or]

theorem ownMember_eq_none : ownMember members key = none ↔ key ∉ members.map Prod.fst := by
  rw [ownMember, Option.map_eq_none_iff, List.find?_eq_none]
  refine ⟨?_, ?_⟩
  · intro h hmem
    obtain ⟨m, hm, hkey⟩ := List.mem_map.mp hmem
    exact h m hm (decide_eq_true hkey)
  · exact fun h m hm hkey => h (of_decide_eq_true hkey ▸ List.mem_map_of_mem hm)

theorem mem_of_ownMember (h : ownMember members key = some v) : (key, v) ∈ members := by
  obtain ⟨⟨key', v'⟩, hfind, rfl⟩ := Option.map_eq_some_iff.mp h
  obtain rfl : key' = key := by simpa using List.find?_some hfind
  exact List.mem_of_find?_eq_some hfind

theorem ownMember_eq_some (hnodup : (members.map Prod.fst).Nodup) :
    ownMember members key = some v ↔ (key, v) ∈ members := by
  refine ⟨mem_of_ownMember, fun hmem => ?_⟩
  rcases h : ownMember members key with _ | v'
  · exact absurd (List.mem_map_of_mem hmem) (ownMember_eq_none.mp h)
  · have heq := List.inj_on_of_nodup_map hnodup (mem_of_ownMember h) hmem rfl
    rw [(Prod.mk.inj heq).2]

/-! ## Members after an assignment -/

theorem ownMember_map_replace (hkey : key ∈ members.map Prod.fst) :
    ownMember (members.map fun m => if m.1 = key then (key, v) else m) k =
      if k = key then some v else ownMember members k := by
  induction members with
  | nil => cases hkey
  | cons m members ih =>
    rw [List.map_cons, ownMember_cons, ownMember_cons]
    by_cases hm : m.1 = key
    · rw [if_pos hm]
      by_cases hk : k = key
      · rw [if_pos hk, if_pos hk.symm]
      · rw [if_neg hk, if_neg (Ne.symm hk), if_neg (hm.symm ▸ Ne.symm hk)]
        by_cases hmem : key ∈ members.map Prod.fst
        · rw [ih hmem, if_neg hk]
        · refine congrArg (ownMember · k) ((List.map_congr_left fun n hn => ?_).trans
            (List.map_id members))
          exact if_neg fun hkey : n.1 = key => hmem (hkey ▸ List.mem_map_of_mem hn)
    · have hmem := (List.mem_cons.mp hkey).resolve_left (Ne.symm hm)
      rw [if_neg hm, ih hmem]
      by_cases hk : k = key
      · rw [if_pos hk, if_pos hk, if_neg (hk.symm ▸ hm)]
      · rw [if_neg hk, if_neg hk]

/-- An assignment changes what the object has under its key, and nothing else. -/
theorem ownMember_assign (hproto : key ≠ protoKey) (members : List (JsString × α)) (v : α)
    (k : JsString) : ownMember (assign members key v) k =
      if k = key then some v else ownMember members k := by
  have hinsert : ∀ ms ns : List (JsString × α), key ∉ ms.map Prod.fst →
      ownMember (ms ++ (key, v) :: ns) k =
        if k = key then some v else ownMember (ms ++ ns) k := by
    intro ms ns hms
    rw [ownMember_append, ownMember_append, ownMember_cons]
    by_cases hk : k = key
    · rw [if_pos hk, if_pos hk.symm, ownMember_eq_none.mpr (hk ▸ hms), Option.none_or]
    · rw [if_neg hk, if_neg (Ne.symm hk)]
  rw [assign, if_neg hproto]
  by_cases hmem : key ∈ members.map Prod.fst
  · rw [if_pos hmem, ownMember_map_replace hmem]
  · rw [if_neg hmem]
    split
    · have h := hinsert members [] hmem
      rwa [List.append_nil] at h
    · next n _ =>
      rw [hinsert, List.takeWhile_append_dropWhile]
      exact fun h => hmem ((List.takeWhile_sublist _).map Prod.fst |>.subset h)

theorem mem_keys_assign (hproto : key ≠ protoKey) :
    k ∈ (assign members key v).map Prod.fst ↔ k = key ∨ k ∈ members.map Prod.fst := by
  rw [← not_iff_not, ← ownMember_eq_none, ownMember_assign hproto, not_or, ← ownMember_eq_none]
  by_cases hk : k = key
  · simp [hk]
  · simp [hk]

theorem keys_assign_nodup (hnodup : (members.map Prod.fst).Nodup) :
    ((assign members key v).map Prod.fst).Nodup := by
  by_cases hproto : key = protoKey
  · rw [assign, if_pos hproto]
    exact hnodup
  by_cases hmem : key ∈ members.map Prod.fst
  · rw [assign, if_neg hproto, if_pos hmem, List.map_map]
    refine (congrArg List.Nodup (List.map_congr_left fun m _ => ?_)).mpr hnodup
    simp only [Function.comp_apply]
    split_ifs with h
    · exact h.symm
    · rfl
  · have hperm := assign_perm (decide_eq_true hproto : isOwn (key, v)) hmem
    rw [(hperm.map Prod.fst).nodup_iff, List.map_append, List.map_singleton,
      ← List.concat_eq_append]
    exact hnodup.concat hmem

/-! ## Members after a series of assignments -/

/-- The assignments of entries to an object, one after the other. -/
def assignOnto (members entries : List (JsString × α)) : List (JsString × α) :=
  entries.foldl (fun members m => assign members m.1 m.2) members

theorem assignOnto_cons (members : List (JsString × α)) (m : JsString × α)
    (entries : List (JsString × α)) :
    assignOnto members (m :: entries) = assignOnto (assign members m.1 m.2) entries := rfl

theorem keys_assignOnto_nodup (hnodup : (members.map Prod.fst).Nodup)
    (entries : List (JsString × α)) : ((assignOnto members entries).map Prod.fst).Nodup := by
  induction entries generalizing members with
  | nil => exact hnodup
  | cons m entries ih => exact ih (keys_assign_nodup hnodup)

theorem mem_keys_assignOnto : k ∈ (assignOnto members entries).map Prod.fst ↔
    k ∈ members.map Prod.fst ∨ k ∈ (entries.map Prod.fst) ∧ k ≠ protoKey := by
  induction entries generalizing members with
  | nil => simp [assignOnto]
  | cons m entries ih =>
    rw [assignOnto_cons, ih, List.map_cons, List.mem_cons]
    by_cases hproto : m.1 = protoKey
    · rw [assign, if_pos hproto, hproto]
      tauto
    · rw [mem_keys_assign hproto]
      by_cases hk : k = m.1
      · rw [hk]
        tauto
      · tauto

/-- Of entries with different keys, the last word on a key is the entry for it. -/
theorem ownMember_assignOnto (hnodup : (entries.map Prod.fst).Nodup)
    (hproto : protoKey ∉ entries.map Prod.fst) (members : List (JsString × α)) (k : JsString) :
    ownMember (assignOnto members entries) k = (ownMember entries k).or (ownMember members k) := by
  induction entries generalizing members with
  | nil => rfl
  | cons m entries ih =>
    obtain ⟨hm, hnodup⟩ := List.nodup_cons.mp hnodup
    have hown : m.1 ≠ protoKey := fun h => hproto (List.mem_cons.mpr (.inl h.symm))
    rw [assignOnto_cons, ih hnodup fun h => hproto (List.mem_cons_of_mem _ h),
      ownMember_assign hown, ownMember_cons]
    by_cases hk : m.1 = k
    · rw [if_pos hk, if_pos hk.symm, ownMember_eq_none.mpr (hk ▸ hm)]
      rfl
    · rw [if_neg hk, if_neg (Ne.symm hk)]

theorem mem_of_mem_assignOnto {m : JsString × α} (h : m ∈ assignOnto members entries) :
    m ∈ members ∨ m ∈ entries := by
  induction entries generalizing members with
  | nil => exact .inl h
  | cons n entries ih =>
    rcases ih h with h | h
    · simp only [assign] at h
      split_ifs at h
      · exact .inl h
      · obtain ⟨m', hm', rfl⟩ := List.mem_map.mp h
        split_ifs
        · exact .inr List.mem_cons_self
        · exact .inl hm'
      · split at h
        · rcases List.mem_append.mp h with h | h
          · exact .inl h
          · rw [List.mem_singleton.mp h]
            exact .inr List.mem_cons_self
        · rcases List.mem_append.mp h with h | h
          · exact .inl ((List.takeWhile_sublist _).subset h)
          · rcases List.mem_cons.mp h with rfl | h
            · exact .inr List.mem_cons_self
            · exact .inl ((List.dropWhile_sublist _).subset h)
    · exact .inr (List.mem_cons_of_mem _ h)

theorem keys_assignAll_nodup (entries : List (JsString × α)) :
    ((assignAll entries).map Prod.fst).Nodup := by
  refine keys_assignOnto_nodup ?_ entries
  exact List.nodup_nil

theorem mem_keys_assignAll :
    k ∈ (assignAll entries).map Prod.fst ↔ k ∈ entries.map Prod.fst ∧ k ≠ protoKey :=
  mem_keys_assignOnto.trans ⟨fun h => h.resolve_left List.not_mem_nil, .inr⟩

theorem protoKey_not_mem_assignAll (entries : List (JsString × α)) :
    protoKey ∉ (assignAll entries).map Prod.fst :=
  fun h => (mem_keys_assignAll.mp h).2 rfl

/-! ## What the projection builds -/

namespace JsValue

/-- Induction over values. -/
@[elab_as_elim]
theorem ind {motive : JsValue → Prop} (undefined : motive .undefined) (null : motive .null)
    (boolean : ∀ b, motive (.boolean b)) (number : ∀ x, motive (.number x))
    (nonFinite : motive .nonFinite) (bigint : ∀ n, motive (.bigint n))
    (string : ∀ s, motive (.string s)) (date : ∀ t, motive (.date t))
    (array : ∀ items, (∀ v ∈ items, motive v) → motive (.array items))
    (serializable : ∀ result, motive result → motive (.serializable result))
    (object : ∀ members, (∀ m ∈ members, motive m.2) → motive (.object members))
    (function : motive .function) (v : JsValue) : motive v := by
  refine @JsValue.rec motive (fun items => ∀ v ∈ items, motive v)
    (fun members => ∀ m ∈ members, motive m.2) (fun m => motive m.2) undefined null boolean
    number nonFinite bigint string date array serializable object function ?_ ?_ ?_ ?_ ?_ v
  · exact fun _ hv => absurd hv List.not_mem_nil
  · exact fun _ _ hhead htail => List.forall_mem_cons.mpr ⟨hhead, htail⟩
  · exact fun _ hm => absurd hm List.not_mem_nil
  · exact fun _ _ hhead htail => List.forall_mem_cons.mpr ⟨hhead, htail⟩
  · exact fun _ _ hvalue => hvalue

end JsValue

theorem safeItems_eq_map (items : List JsValue) : safeItems items = items.map toJsonSafe := by
  induction items with
  | nil => rfl
  | cons v items ih => rw [safeItems, ih, List.map_cons]

theorem safeEntries_eq_map (members : List (JsString × JsValue)) :
    safeEntries members = members.map fun m => (m.1, toJsonSafe m.2) := by
  induction members with
  | nil => rfl
  | cons m members ih =>
    obtain ⟨key, value⟩ := m
    rw [safeEntries, ih, List.map_cons]

theorem map_fst_safeEntries (members : List (JsString × JsValue)) :
    (safeEntries members).map Prod.fst = members.map Prod.fst := by
  rw [safeEntries_eq_map, List.map_map]
  rfl

/-- What holds of the keys of all objects built by assignment holds of all objects in a
projected value. -/
theorem everyObject_toJsonSafe {p : List JsString → Bool}
    (hp : ∀ entries : List (JsString × Json), p ((assignAll entries).map Prod.fst))
    (value : JsValue) : (toJsonSafe value).everyObject p := by
  induction value using JsValue.ind with
  | array items ih =>
    rw [toJsonSafe, safeItems_eq_map]
    exact Json.everyObject_array.mpr (List.forall_mem_map.mpr ih)
  | serializable result ih =>
    rw [toJsonSafe]
    exact ih
  | object members ih =>
    rw [toJsonSafe]
    refine Json.everyObject_object.mpr ⟨hp _, fun m hm => ?_⟩
    have hm := (mem_of_mem_assignOnto hm).resolve_left List.not_mem_nil
    rw [safeEntries_eq_map] at hm
    obtain ⟨n, hn, rfl⟩ := List.mem_map.mp hm
    exact ih n hn
  | _ =>
    rw [toJsonSafe]
    rfl

theorem uniqueKeys_toJsonSafe (value : JsValue) : (toJsonSafe value).uniqueKeys :=
  everyObject_toJsonSafe (fun entries => decide_eq_true (keys_assignAll_nodup entries)) value

theorem protoFree_toJsonSafe (value : JsValue) : (toJsonSafe value).protoFree := by
  refine everyObject_toJsonSafe (fun entries => ?_) value
  have h := protoKey_not_mem_assignAll entries
  simpa using h

end RatelPlatform
