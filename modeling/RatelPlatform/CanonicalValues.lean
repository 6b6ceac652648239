import RatelPlatform.CanonicalJson

/-!
# What the canonical text tells apart

Assigning to `__proto__` creates no member, so the canonical text of a value is that of the
value without the members called so (`canonical_withoutProto`), and among values without such
members it tells apart whatever differs in more than the order of keys.
-/

namespace RatelPlatform

namespace Json

mutual

/-- The value without the members called `__proto__`, however deep inside. -/
def withoutProto : Json → Json
  | .array items => .array (itemsWithoutProto items)
  | .object members => .object (membersWithoutProto members)
  | j => j

/-- The elements of an array, each without its `__proto__` members. -/
def itemsWithoutProto : List Json → List Json
  | [] => []
  | j :: items => j.withoutProto :: itemsWithoutProto items

/-- The members of an object, but for `__proto__`. -/
def membersWithoutProto : List (JsString × Json) → List (JsString × Json)
  | [] => []
  | (key, value) :: members =>
    if key = protoKey then membersWithoutProto members
    else (key, value.withoutProto) :: membersWithoutProto members

end

theorem itemsWithoutProto_eq_map (items : List Json) :
    itemsWithoutProto items = items.map withoutProto := by
  induction items with
  | nil => rfl
  | cons j items ih => rw [itemsWithoutProto, ih, List.map_cons]

theorem membersWithoutProto_eq_map (members : List (JsString × Json)) :
    membersWithoutProto members =
      (members.filter isOwn).map fun m => (m.1, m.2.withoutProto) := by
  induction members with
  | nil => rfl
  | cons m members ih =>
    obtain ⟨key, value⟩ := m
    rw [membersWithoutProto, ih]
    by_cases hkey : key = protoKey
    · rw [if_pos hkey, List.filter_cons_of_neg (by simpa [isOwn] using hkey)]
    · rw [if_neg hkey, List.filter_cons_of_pos (by simpa [isOwn] using hkey), List.map_cons]

theorem map_fst_membersWithoutProto (members : List (JsString × Json)) :
    (membersWithoutProto members).map Prod.fst = (members.filter isOwn).map Prod.fst := by
  rw [membersWithoutProto_eq_map, List.map_map]
  rfl

/-- What has no such members is left alone. -/
theorem withoutProto_of_protoFree {j : Json} (h : j.protoFree) : j.withoutProto = j := by
  induction j using Json.ind with
  | array items ih =>
    have h := everyObject_array.mp h
    rw [withoutProto, itemsWithoutProto_eq_map, List.map_congr_left fun j hj => ih j hj (h j hj),
      List.map_id']
  | object members ih =>
    obtain ⟨hkeys, h⟩ := everyObject_object.mp h
    have hown : members.filter isOwn = members := by
      refine List.filter_eq_self.mpr fun m hm => decide_eq_true fun hkey => ?_
      have hmem : protoKey ∈ members.map Prod.fst := hkey ▸ List.mem_map_of_mem hm
      simp [hmem] at hkeys
    rw [withoutProto, membersWithoutProto_eq_map, hown]
    refine congrArg Json.object ((List.map_congr_left fun m hm => ?_).trans (List.map_id members))
    rw [ih m hm (h m hm)]
    rfl
  | _ => rfl

theorem protoFree_withoutProto (j : Json) : j.withoutProto.protoFree := by
  induction j using Json.ind with
  | array items ih =>
    rw [withoutProto, itemsWithoutProto_eq_map]
    exact everyObject_array.mpr (List.forall_mem_map.mpr ih)
  | object members ih =>
    refine everyObject_object.mpr ⟨?_, ?_⟩
    · rw [map_fst_membersWithoutProto]
      simp [isOwn]
    · rw [membersWithoutProto_eq_map]
      exact List.forall_mem_map.mpr fun m hm => ih m (List.mem_of_mem_filter hm)
  | _ => rfl

theorem uniqueKeys_withoutProto {j : Json} (h : j.uniqueKeys) : j.withoutProto.uniqueKeys := by
  induction j using Json.ind with
  | array items ih =>
    have h := everyObject_array.mp h
    rw [withoutProto, itemsWithoutProto_eq_map]
    exact everyObject_array.mpr (List.forall_mem_map.mpr fun j hj => ih j hj (h j hj))
  | object members ih =>
    obtain ⟨hkeys, h⟩ := everyObject_object.mp h
    refine everyObject_object.mpr ⟨decide_eq_true ?_, ?_⟩
    · rw [map_fst_membersWithoutProto]
      exact (of_decide_eq_true hkeys).sublist (List.filter_sublist.map Prod.fst)
    · rw [membersWithoutProto_eq_map]
      refine List.forall_mem_map.mpr fun m hm => ?_
      exact ih m (List.mem_of_mem_filter hm) (h m (List.mem_of_mem_filter hm))
  | _ => rfl

/-- **The canonical form does not see `__proto__`.** -/
theorem canonical_withoutProto {j : Json} (h : j.uniqueKeys) :
    j.withoutProto.canonical = j.canonical := by
  induction j using Json.ind with
  | array items ih =>
    have h := everyObject_array.mp h
    rw [withoutProto, itemsWithoutProto_eq_map, canonical_array, canonical_array, List.map_map]
    exact congrArg Json.array (List.map_congr_left fun j hj => ih j hj (h j hj))
  | object members ih =>
    have hunique := uniqueKeys_withoutProto h
    obtain ⟨hkeys, h⟩ := everyObject_object.mp h
    obtain ⟨hkeys', -⟩ := everyObject_object.mp hunique
    have hmembers : ((membersWithoutProto members).filter isOwn).map canonicalMember =
        (members.filter isOwn).map canonicalMember := by
      rw [membersWithoutProto_eq_map, List.filter_map, List.map_map]
      show ((members.filter isOwn).filter isOwn).map _ = _
      rw [List.filter_filter, List.filter_congr fun m _ => Bool.and_self (isOwn m)]
      refine List.map_congr_left fun m hm => ?_
      have hm := List.mem_of_mem_filter hm
      exact congrArg (Prod.mk m.1) (ih m hm (h m hm))
    rw [withoutProto, canonical_object (of_decide_eq_true hkeys),
      canonical_object (of_decide_eq_true hkeys'), hmembers]
  | _ => rfl

/-- Two values have one canonical form exactly when they are the same, the order of keys
and `__proto__` apart. -/
theorem canonical_eq_iff {a b : Json} (ha : a.uniqueKeys) (hb : b.uniqueKeys) :
    a.canonical = b.canonical ↔ a.withoutProto.Same b.withoutProto := by
  rw [← canonical_withoutProto ha, ← canonical_withoutProto hb]
  refine ⟨?_, ?_⟩
  · exact same_of_canonical_eq (uniqueKeys_withoutProto ha) (uniqueKeys_withoutProto hb)
      (protoFree_withoutProto a) (protoFree_withoutProto b)
  · exact fun h => h.canonical_eq (uniqueKeys_withoutProto ha) (uniqueKeys_withoutProto hb)

theorem canonicalStringify_eq_iff {a b : Json} :
    canonicalStringify a.toJs = canonicalStringify b.toJs ↔ a.canonical = b.canonical := by
  rw [canonicalStringify_toJs, canonicalStringify_toJs]
  exact ⟨stringify_injective, congrArg stringify⟩

/-- Two values that differ, but in nothing else than members called `__proto__`. -/
def DifferInProto (a b : Json) : Prop := ¬ a.Same b ∧ a.withoutProto.Same b.withoutProto

end Json

namespace JsonData

/-- **The canonical text is the value up to the order of keys** for just those pairs of values
that do not differ in `__proto__` members alone. -/
theorem canonicalStringify_faithful_iff (v w : JsonData) :
    (canonicalStringify v.value.toJs = canonicalStringify w.value.toJs ↔ v.value.Same w.value) ↔
      ¬ v.value.DifferInProto w.value := by
  have hsame : v.value.Same w.value → v.value.withoutProto.Same w.value.withoutProto := fun h =>
    (Json.canonical_eq_iff v.unique w.unique).mp (h.canonical_eq v.unique w.unique)
  rw [Json.canonicalStringify_eq_iff, Json.canonical_eq_iff v.unique w.unique, Json.DifferInProto]
  refine ⟨?_, ?_⟩
  · rintro h ⟨hdiffer, htext⟩
    exact hdiffer (h.mp htext)
  · exact fun h => ⟨fun htext => by_contra fun hdiffer => h ⟨hdiffer, htext⟩, hsame⟩

/-- An object with a member `__proto__` has the text of the empty one. -/
theorem canonicalStringify_forgets : ¬ ∀ v w : JsonData,
    canonicalStringify v.value.toJs = canonicalStringify w.value.toJs ↔
      v.value.Same w.value := by
  intro h
  have htext : canonicalStringify (Json.object [(protoKey, .boolean true)]).toJs =
      canonicalStringify (Json.object []).toJs := by decide
  cases (h ⟨.object [(protoKey, .boolean true)], by decide⟩ ⟨.object [], by decide⟩).mp htext with
  | object hmembers hperm =>
    cases hperm.eq_nil
    cases hmembers

end JsonData

end RatelPlatform
