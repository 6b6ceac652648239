import Mathlib.Data.List.Lex
import Mathlib.Data.List.Sort
import RatelPlatform.Calendar
import RatelPlatform.Json

/-!
# Canonical JSON

`toJsonSafe` projects any value to JSON, `sortKeysDeep` rebuilds every object
with its keys in code unit order, and `canonicalStringify` is the text of the
result. Both functions build objects by assignment, and an assignment does two
things that a list of entries would not: an array index goes in front of the
other keys, and `__proto__` is swallowed by the setter every object inherits.

On JSON values the text is canonical: it does not depend on the order of keys
(`Json.Same.canonical_eq`), and, where no key is `__proto__`, it depends on
everything else (`Json.same_of_canonical_eq`).
-/

namespace RatelPlatform

/-- A value of the language, as far as `toJsonSafe` tells them apart. -/
inductive JsValue
  /-- `undefined` -/
  | undefined
  /-- `null` -/
  | null
  /-- a boolean -/
  | boolean (b : Bool)
  /-- a finite number -/
  | number (x : JsNumber)
  /-- `NaN` or an infinity -/
  | nonFinite
  /-- a bigint -/
  | bigint (n : ℤ)
  /-- a string -/
  | string (s : JsString)
  /-- a valid date -/
  | date (t : JsDate)
  /-- an array -/
  | array (items : List JsValue)
  /-- an object with a `toJSON` method, and what the method answers -/
  | serializable (result : JsValue)
  /-- any other object: its own members, in enumeration order -/
  | object (members : List (JsString × JsValue))
  /-- a function or a symbol -/
  | function

/-! ## Building objects -/

/-- The key whose assignment sets the prototype and creates no member. -/
def protoKey : JsString := js "__proto__"

/-- The number a key stands for when it is an array index. -/
def arrayIndex (key : JsString) : Option ℕ :=
  let n := key.foldl (fun n u => 10 * n + (u.toNat - 0x30)) 0
  if key = js "0" ∨ (key.all (fun u => 0x30 ≤ u.toNat && u.toNat ≤ 0x39) ∧ key ≠ [] ∧
      key.head? ≠ some 0x30 ∧ n < 4294967295) then some n
  else none

variable {α : Type}

/-- Whether a member is enumerated before the array index `n`. -/
def beforeIndex (n : ℕ) (m : JsString × α) : Bool :=
  match arrayIndex m.1 with
  | some i => i < n
  | none => false

/-- The assignment `object[key] = value` to an object with these members. -/
def assign (members : List (JsString × α)) (key : JsString) (value : α) : List (JsString × α) :=
  if key = protoKey then members
  else if key ∈ members.map Prod.fst then
    members.map fun m => if m.1 = key then (key, value) else m
  else
    match arrayIndex key with
    | none => members ++ [(key, value)]
    | some n => members.takeWhile (beforeIndex n) ++ (key, value) :: members.dropWhile (beforeIndex n)

/-- Assigning entries, one after the other, to `{}`. -/
def assignAll (entries : List (JsString × α)) : List (JsString × α) :=
  entries.foldl (fun members m => assign members m.1 m.2) []

/-- Whether an assignment of this entry creates a member. -/
def isOwn (m : JsString × α) : Bool := m.1 ≠ protoKey

theorem assign_perm {members : List (JsString × α)} {m : JsString × α}
    (hown : isOwn m) (hfresh : m.1 ∉ members.map Prod.fst) :
    (assign members m.1 m.2).Perm (members ++ [m]) := by
  simp only [assign]
  rw [if_neg (of_decide_eq_true hown), if_neg hfresh]
  split
  · exact .refl _
  · rename_i n _
    rw [List.perm_comm]
    refine (List.perm_append_singleton m members).trans ?_
    nth_rewrite 1 [← List.takeWhile_append_dropWhile (p := beforeIndex n) (l := members)]
    exact List.perm_middle.symm

theorem foldl_assign_perm (entries acc : List (JsString × α))
    (hnodup : ((acc ++ entries).map Prod.fst).Nodup) :
    (entries.foldl (fun members m => assign members m.1 m.2) acc).Perm
      (acc ++ entries.filter isOwn) := by
  induction entries generalizing acc with
  | nil => rw [List.foldl_nil, List.filter_nil, List.append_nil]
  | cons m entries ih =>
    have hsplit : acc ++ m :: entries = acc ++ [m] ++ entries := by simp
    rw [List.foldl_cons]
    by_cases hown : isOwn m
    · have hfresh : m.1 ∉ acc.map Prod.fst := by
        rw [List.map_append, List.map_cons, List.nodup_append] at hnodup
        exact fun hmem => hnodup.2.2 _ hmem _ List.mem_cons_self rfl
      have hassign := assign_perm hown hfresh
      refine (ih _ ?_).trans ?_
      · rw [hsplit] at hnodup
        exact (((hassign.append_right entries).map Prod.fst).nodup_iff).mpr hnodup
      · rw [List.filter_cons_of_pos hown]
        refine (hassign.append_right _).trans ?_
        rw [List.append_assoc]
        rfl
    · have hskip : assign acc m.1 m.2 = acc := by
        simp only [assign]
        rw [if_pos (by simpa [isOwn] using hown)]
      rw [hskip, List.filter_cons_of_neg hown]
      refine ih acc (hnodup.sublist ?_)
      exact ((List.sublist_cons_self m entries).append_left acc).map Prod.fst

/-- Entries with different keys become the members, in some order, but for `__proto__`. -/
theorem assignAll_perm {entries : List (JsString × α)} (hnodup : (entries.map Prod.fst).Nodup) :
    (assignAll entries).Perm (entries.filter isOwn) :=
  foldl_assign_perm entries [] hnodup

/-! ## The projection and the canonical text -/

/-- `bigint.toString()`. -/
def bigintText (n : ℤ) : List Char :=
  if n < 0 then '-' :: Nat.toDigits 10 n.natAbs else Nat.toDigits 10 n.natAbs

mutual

/-- `toJsonSafe`. -/
def toJsonSafe : JsValue → Json
  | .null => .null
  | .undefined => .null
  | .string s => .string s
  | .boolean b => .boolean b
  | .number x => .number x
  | .nonFinite => .null
  | .bigint n => .string (.ofAscii (bigintText n))
  | .date t => .string (.ofAscii t.toISOString)
  | .array items => .array (safeItems items)
  | .serializable result => toJsonSafe result
  | .object members => .object (assignAll (safeEntries members))
  | .function => .null

/-- `value.map(toJsonSafe)`. -/
def safeItems : List JsValue → List Json
  | [] => []
  | v :: items => toJsonSafe v :: safeItems items

/-- The entries of an object, each value projected. -/
def safeEntries : List (JsString × JsValue) → List (JsString × Json)
  | [] => []
  | (key, nested) :: members => (key, toJsonSafe nested) :: safeEntries members

end

/-- `Array.prototype.sort` compares strings by their code units. -/
def keyLe (m n : JsString × Json) : Prop := m.1.map UInt16.toNat ≤ n.1.map UInt16.toNat

instance : DecidableRel keyLe := fun m n =>
  inferInstanceAs (Decidable (m.1.map UInt16.toNat ≤ n.1.map UInt16.toNat))

instance : Std.Total keyLe := ⟨fun _ _ => le_total _ _⟩

instance : IsTrans (JsString × Json) keyLe := ⟨fun _ _ _ => le_trans⟩

mutual

/-- `sortKeysDeep`. -/
def sortKeysDeep : Json → Json
  | .array items => .array (sortItems items)
  | .object members => .object (assignAll ((sortEntries members).insertionSort keyLe))
  | j => j

/-- `value.map(sortKeysDeep)`. -/
def sortItems : List Json → List Json
  | [] => []
  | j :: items => sortKeysDeep j :: sortItems items

/-- The members of an object, each value sorted. -/
def sortEntries : List (JsString × Json) → List (JsString × Json)
  | [] => []
  | (key, value) :: members => (key, sortKeysDeep value) :: sortEntries members

end

/-- `canonicalStringify`. -/
def canonicalStringify (value : JsValue) : List Char := (sortKeysDeep (toJsonSafe value)).stringify

mutual

/-- A JSON value as a value of the language. -/
def Json.toJs : Json → JsValue
  | .null => .null
  | .boolean b => .boolean b
  | .number x => .number x
  | .string s => .string s
  | .array items => .array (Json.itemsToJs items)
  | .object members => .object (Json.membersToJs members)

/-- The elements of an array. -/
def Json.itemsToJs : List Json → List JsValue
  | [] => []
  | j :: items => j.toJs :: Json.itemsToJs items

/-- The members of an object. -/
def Json.membersToJs : List (JsString × Json) → List (JsString × JsValue)
  | [] => []
  | (key, value) :: members => (key, value.toJs) :: Json.membersToJs members

end

example : canonicalStringify (.object [(js "b", .undefined), (js "10", .bigint (-5)),
    (js "a", .array [.boolean true]), (js "9", .string (js "x"))]) =
    "\x7b\"9\":\"x\",\"10\":\"-5\",\"a\":[true],\"b\":null\x7d".toList := by
  decide

/-! ## The canonical form of JSON values -/

/-- Pointwise facts may use which elements they are about. -/
theorem forall₂_imp_mem {β : Type} {R S : α → β → Prop} {xs : List α} {ys : List β}
    (h : List.Forall₂ R xs ys) (himp : ∀ x ∈ xs, ∀ y ∈ ys, R x y → S x y) :
    List.Forall₂ S xs ys := by
  induction h with
  | nil => exact .nil
  | cons hxy _ ih =>
    refine .cons (himp _ List.mem_cons_self _ List.mem_cons_self hxy) (ih fun x hx y hy => ?_)
    exact himp x (List.mem_cons_of_mem _ hx) y (List.mem_cons_of_mem _ hy)

theorem forall₂_iff_map_eq {β : Type} {f : α → β} {xs ys : List α} :
    List.Forall₂ (fun x y => f x = f y) xs ys ↔ xs.map f = ys.map f := by
  rw [← List.forall₂_eq_eq_eq, List.forall₂_map_left_iff, List.forall₂_map_right_iff]

/-- Lists that agree up to order after a map agree up to order before it, but for
elements the map identifies. -/
theorem exists_perm_of_map_perm {β : Type} {f : α → β} {xs ys : List α}
    (h : (xs.map f).Perm (ys.map f)) :
    ∃ zs, List.Forall₂ (fun x z => f x = f z) xs zs ∧ zs.Perm ys := by
  have hys : List.Forall₂ (fun b y => b = f y) (ys.map f) ys :=
    List.forall₂_map_left_iff.mpr (List.forall₂_same.mpr fun _ _ => rfl)
  obtain ⟨zs, hzs, hperm⟩ := List.perm_comp_forall₂ h hys
  exact ⟨zs, List.forall₂_map_left_iff.mp hzs, hperm⟩

namespace Json

/-- The value whose text `canonicalStringify` writes. -/
def canonical (j : Json) : Json := sortKeysDeep (toJsonSafe j.toJs)

/-- A member with its value in canonical form. -/
def canonicalMember (m : JsString × Json) : JsString × Json := (m.1, m.2.canonical)

theorem canonicalStringify_toJs (j : Json) : canonicalStringify j.toJs = j.canonical.stringify := rfl

theorem canonical_array (items : List Json) :
    (Json.array items).canonical = .array (items.map canonical) := by
  unfold canonical
  rw [toJs, toJsonSafe, sortKeysDeep]
  congr 1
  induction items with
  | nil => rfl
  | cons j items ih =>
    rw [itemsToJs, safeItems, sortItems, ih, List.map_cons]

theorem safeEntries_membersToJs (members : List (JsString × Json)) :
    safeEntries (membersToJs members) = members.map fun m => (m.1, toJsonSafe m.2.toJs) := by
  induction members with
  | nil => rfl
  | cons m members ih =>
    obtain ⟨key, value⟩ := m
    rw [membersToJs, safeEntries, ih, List.map_cons]

theorem sortEntries_eq_map (members : List (JsString × Json)) :
    sortEntries members = members.map fun m => (m.1, sortKeysDeep m.2) := by
  induction members with
  | nil => rfl
  | cons m members ih =>
    obtain ⟨key, value⟩ := m
    rw [sortEntries, ih, List.map_cons]

theorem map_fst_canonicalMember (members : List (JsString × Json)) :
    (members.map canonicalMember).map Prod.fst = members.map Prod.fst := by
  rw [List.map_map]
  rfl

/-- Two members of one object that agree in their key are one. -/
theorem eq_of_key_eq {members : List (JsString × Json)} (hnodup : (members.map Prod.fst).Nodup)
    {m n : JsString × Json} (hm : m ∈ members) (hn : n ∈ members) (h : m.1 = n.1) : m = n :=
  List.inj_on_of_nodup_map hnodup hm hn h

/-- Sorting by keys forgets the order of the members. -/
theorem insertionSort_eq_of_perm {ms ns : List (JsString × Json)} (h : ms.Perm ns)
    (hnodup : (ms.map Prod.fst).Nodup) : ms.insertionSort keyLe = ns.insertionSort keyLe := by
  refine List.Perm.eq_of_pairwise ?_ (List.pairwise_insertionSort keyLe ms)
    (List.pairwise_insertionSort keyLe ns)
    ((List.perm_insertionSort keyLe ms).trans (h.trans (List.perm_insertionSort keyLe ns).symm))
  intro m n hm hn hmn hnm
  refine eq_of_key_eq hnodup ((List.mem_insertionSort keyLe).mp hm)
    (h.mem_iff.mpr ((List.mem_insertionSort keyLe).mp hn)) ?_
  exact List.map_injective_iff.mpr (fun _ _ => UInt16.toNat_inj.mp) (le_antisymm hmn hnm)

/-- The members of a canonical object: those that assignment creates, in canonical
form, sorted by key and assigned in that order. -/
theorem canonical_object {members : List (JsString × Json)}
    (hnodup : (members.map Prod.fst).Nodup) :
    (Json.object members).canonical =
      .object (assignAll (((members.filter isOwn).map canonicalMember).insertionSort keyLe)) := by
  simp only [canonical]
  rw [toJs, toJsonSafe, sortKeysDeep, safeEntries_membersToJs, sortEntries_eq_map]
  congr 2
  have hkeys : ((members.map fun m => (m.1, toJsonSafe m.2.toJs)).map Prod.fst).Nodup := by
    rw [List.map_map]
    exact hnodup
  have hsafe := assignAll_perm hkeys
  rw [List.filter_map] at hsafe
  refine (insertionSort_eq_of_perm ?_ ?_).symm
  · refine List.Perm.symm ((hsafe.map fun m => (m.1, sortKeysDeep m.2)).trans ?_)
    rw [List.map_map]
    exact .refl _
  · rw [map_fst_canonicalMember]
    exact hnodup.sublist (List.filter_sublist.map Prod.fst)

/-- No object inside the value has `__proto__` among its keys. -/
def protoFree (j : Json) : Bool := j.everyObject fun keys => !keys.contains protoKey

/-- Without `__proto__`, canonical form keeps all members. -/
theorem canonical_object_perm {members : List (JsString × Json)}
    (hnodup : (members.map Prod.fst).Nodup) (hproto : protoKey ∉ members.map Prod.fst) :
    ∃ sorted, (Json.object members).canonical = .object sorted ∧
      sorted.Perm (members.map canonicalMember) := by
  have hown : ∀ ms : List (JsString × Json), protoKey ∉ ms.map Prod.fst →
      ms.filter isOwn = ms := by
    intro ms hms
    exact List.filter_eq_self.mpr (fun m hm =>
      decide_eq_true fun hkey => hms (hkey ▸ List.mem_map_of_mem hm))
  refine ⟨_, canonical_object hnodup, ?_⟩
  rw [hown members hproto]
  have hsort := List.perm_insertionSort keyLe (members.map canonicalMember)
  have hkeys := map_fst_canonicalMember members
  refine (assignAll_perm ?_).trans ?_
  · rw [((hsort.map Prod.fst).nodup_iff), hkeys]
    exact hnodup
  · rw [hown]
    · exact hsort
    · rw [(hsort.map Prod.fst).mem_iff, hkeys]
      exact hproto

/-- A canonical object is determined by its canonical members, in any order. -/
theorem canonical_object_congr {ms ns : List (JsString × Json)} (hms : (ms.map Prod.fst).Nodup)
    (h : (ms.map canonicalMember).Perm (ns.map canonicalMember)) :
    (Json.object ms).canonical = (Json.object ns).canonical := by
  have hns : (ns.map Prod.fst).Nodup := by
    rw [← map_fst_canonicalMember, ← (h.map Prod.fst).nodup_iff, map_fst_canonicalMember]
    exact hms
  have hown : ∀ members : List (JsString × Json),
      (members.filter isOwn).map canonicalMember = (members.map canonicalMember).filter isOwn := by
    intro members
    rw [List.filter_map]
    rfl
  rw [canonical_object hms, canonical_object hns]
  congr 2
  refine insertionSort_eq_of_perm ?_ ?_
  · rw [hown, hown]
    exact h.filter isOwn
  · rw [map_fst_canonicalMember]
    exact hms.sublist (List.filter_sublist.map Prod.fst)

/-- **The canonical text does not see the order of keys.** -/
theorem Same.canonical_eq {a b : Json} (h : a.Same b) (ha : a.uniqueKeys) (hb : b.uniqueKeys) :
    a.canonical = b.canonical := by
  induction a using Json.ind generalizing b with
  | null =>
    cases h
    rfl
  | boolean =>
    cases h
    rfl
  | number =>
    cases h
    rfl
  | string =>
    cases h
    rfl
  | array items ih =>
    cases h with
    | array hitems =>
      have ha := everyObject_array.mp ha
      have hb := everyObject_array.mp hb
      rw [canonical_array, canonical_array, forall₂_iff_map_eq.mp
        (forall₂_imp_mem hitems fun x hx y hy hxy => ih x hx hxy (ha x hx) (hb y hy))]
  | object members ih =>
    cases h with
    | @object _ ns ps hmembers hperm =>
      obtain ⟨hkeys, ha⟩ := everyObject_object.mp ha
      obtain ⟨-, hb⟩ := everyObject_object.mp hb
      have hpoint : members.map canonicalMember = ns.map canonicalMember := by
        refine forall₂_iff_map_eq.mp (forall₂_imp_mem hmembers fun m hm n hn hmn => ?_)
        obtain ⟨key, hvalue⟩ := hmn
        exact congrArg (Prod.mk key) (ih _ hm hvalue (ha _ hm) (hb _ (hperm.mem_iff.mp hn)))
      refine canonical_object_congr (of_decide_eq_true hkeys) ?_
      rw [hpoint]
      exact hperm.map canonicalMember

theorem kind_canonical (j : Json) : j.canonical.kind = j.kind := by
  cases j <;> rfl

/-- **The canonical text sees everything but the order of keys**, as long as no
key is `__proto__`. -/
theorem same_of_canonical_eq {a b : Json} (ha : a.uniqueKeys) (hb : b.uniqueKeys)
    (pa : a.protoFree) (pb : b.protoFree) (h : a.canonical = b.canonical) : a.Same b := by
  have hkind : a.kind = b.kind := by
    rw [← kind_canonical, h, kind_canonical]
  induction a using Json.ind generalizing b with
  | null =>
    cases b <;> cases hkind
    exact .null
  | boolean x =>
    cases b <;> cases hkind
    cases h
    exact .boolean x
  | number x =>
    cases b <;> cases hkind
    cases h
    exact .number x
  | string s =>
    cases b <;> cases hkind
    cases h
    exact .string s
  | array items ih =>
    rcases b with _ | _ | _ | _ | items' | _ <;> cases hkind
    rw [canonical_array, canonical_array] at h
    have ha := everyObject_array.mp ha
    have hb := everyObject_array.mp hb
    have pa := everyObject_array.mp pa
    have pb := everyObject_array.mp pb
    refine .array (forall₂_imp_mem (forall₂_iff_map_eq.mpr (Json.array.inj h)) ?_)
    intro x hx y hy hxy
    exact ih x hx (ha x hx) (hb y hy) (pa x hx) (pb y hy) hxy
      (by rw [← kind_canonical, hxy, kind_canonical])
  | object members ih =>
    rcases b with _ | _ | _ | _ | _ | members' <;> cases hkind
    obtain ⟨hkeys, ha⟩ := everyObject_object.mp ha
    obtain ⟨hkeys', hb⟩ := everyObject_object.mp hb
    obtain ⟨hproto, pa⟩ := everyObject_object.mp pa
    obtain ⟨hproto', pb⟩ := everyObject_object.mp pb
    obtain ⟨L, hL, hperm⟩ := canonical_object_perm (of_decide_eq_true hkeys)
      (by simpa using hproto)
    obtain ⟨L', hL', hperm'⟩ := canonical_object_perm (of_decide_eq_true hkeys')
      (by simpa using hproto')
    obtain rfl : L = L' := Json.object.inj (hL.symm.trans (h.trans hL'))
    -- the members of the second object, put in the order of the first
    obtain ⟨zs, hzs, hzperm⟩ := exists_perm_of_map_perm (hperm.symm.trans hperm')
    refine .object (forall₂_imp_mem hzs ?_) hzperm
    intro m hm n hn hmn
    have hn := hzperm.mem_iff.mp hn
    obtain ⟨key, v⟩ := m
    obtain ⟨key', w⟩ := n
    obtain ⟨rfl, hvalue⟩ := Prod.mk.inj hmn
    exact .mk key (ih _ hm (ha _ hm) (hb _ hn) (pa _ hm) (pb _ hn) hvalue
      (by rw [← kind_canonical, hvalue, kind_canonical]))

/-- Objects with one canonical form agree in every key that both have, whatever
their values hold. -/
theorem canonical_value_eq {ms ns : List (JsString × Json)} (hms : (ms.map Prod.fst).Nodup)
    (hns : (ns.map Prod.fst).Nodup) (pms : protoKey ∉ ms.map Prod.fst)
    (pns : protoKey ∉ ns.map Prod.fst)
    (h : (Json.object ms).canonical = (Json.object ns).canonical) {key : JsString} {v w : Json}
    (hv : (key, v) ∈ ms) (hw : (key, w) ∈ ns) : v.canonical = w.canonical := by
  obtain ⟨L, hL, hperm⟩ := canonical_object_perm hms pms
  obtain ⟨L', hL', hperm'⟩ := canonical_object_perm hns pns
  obtain rfl : L = L' := Json.object.inj (hL.symm.trans (h.trans hL'))
  have hkeys : (L.map Prod.fst).Nodup := by
    rw [(hperm.map Prod.fst).nodup_iff, map_fst_canonicalMember]
    exact hms
  have hv' : (key, v.canonical) ∈ L := hperm.mem_iff.mpr (List.mem_map_of_mem hv)
  have hw' : (key, w.canonical) ∈ L := hperm'.mem_iff.mpr (List.mem_map_of_mem hw)
  exact congrArg Prod.snd (eq_of_key_eq hkeys hv' hw' rfl)

end Json

end RatelPlatform
