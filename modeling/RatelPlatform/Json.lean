import Mathlib.Data.List.Perm.Basic
import RatelPlatform.JsNumber
import RatelPlatform.JsString

/-!
# JSON values and their text

The members of an object are listed in the order the language enumerates them,
so `stringify` is `JSON.stringify` without indentation. It loses nothing: the
text determines the value, member order included (`Json.stringify_injective`).
What two values are when that order is disregarded is `Json.Same`.
-/

namespace RatelPlatform

/-- A JSON value. -/
inductive Json
  /-- `null` -/
  | null
  /-- a boolean -/
  | boolean (b : Bool)
  /-- a finite number -/
  | number (x : JsNumber)
  /-- a string -/
  | string (s : JsString)
  /-- an array -/
  | array (items : List Json)
  /-- an object: its members, in enumeration order -/
  | object (members : List (JsString × Json))

namespace Json

/-- Induction over values: the elements of an array and the member values of an
object are smaller. -/
@[elab_as_elim]
theorem ind {motive : Json → Prop} (null : motive .null) (boolean : ∀ b, motive (.boolean b))
    (number : ∀ x, motive (.number x)) (string : ∀ s, motive (.string s))
    (array : ∀ items, (∀ j ∈ items, motive j) → motive (.array items))
    (object : ∀ members, (∀ m ∈ members, motive m.2) → motive (.object members)) (j : Json) :
    motive j := by
  refine @Json.rec motive (fun items => ∀ j ∈ items, motive j)
    (fun members => ∀ m ∈ members, motive m.2) (fun m => motive m.2)
    null boolean number string array object ?_ ?_ ?_ ?_ ?_ j
  · exact fun _ hj => absurd hj List.not_mem_nil
  · exact fun _ _ hhead htail => List.forall_mem_cons.mpr ⟨hhead, htail⟩
  · exact fun _ hm => absurd hm List.not_mem_nil
  · exact fun _ _ hhead htail => List.forall_mem_cons.mpr ⟨hhead, htail⟩
  · exact fun _ _ hvalue => hvalue

/-! ## The text -/

mutual

/-- `JSON.stringify`. -/
def stringify : Json → List Char
  | .null => ['n', 'u', 'l', 'l']
  | .boolean true => ['t', 'r', 'u', 'e']
  | .boolean false => ['f', 'a', 'l', 's', 'e']
  | .number x => x.text
  | .string s => quote s
  | .array items => '[' :: [','].intercalate (texts items) ++ [']']
  | .object members => '{' :: [','].intercalate (memberTexts members) ++ ['}']

/-- The texts of the elements of an array. -/
def texts : List Json → List (List Char)
  | [] => []
  | j :: items => j.stringify :: texts items

/-- The texts of the members of an object. -/
def memberTexts : List (JsString × Json) → List (List Char)
  | [] => []
  | (key, value) :: members => (quote key ++ ':' :: value.stringify) :: memberTexts members

end

/-- A member of an object: its key, a colon and its value. -/
def memberText (m : JsString × Json) : List Char := quote m.1 ++ ':' :: m.2.stringify

theorem texts_eq_map (items : List Json) : texts items = items.map stringify := by
  induction items with
  | nil => rfl
  | cons j items ih => rw [texts, ih, List.map_cons]

theorem memberTexts_eq_map (members : List (JsString × Json)) :
    memberTexts members = members.map memberText := by
  induction members with
  | nil => rfl
  | cons m members ih =>
    obtain ⟨key, value⟩ := m
    rw [memberTexts, ih, List.map_cons]
    rfl

example : (Json.object [(js "a", .array [.null, .number .zero]), (js "b", .boolean true)]).stringify =
    "\x7b\"a\":[null,0],\"b\":true\x7d".toList := by
  decide

/-! ## Sequences between commas -/

/-- What can stand behind a value inside a text: the end, a comma or a closing bracket. -/
def EndsValue (r : List Char) : Prop := ∀ c ∈ r.head?, c = ',' ∨ c = ']' ∨ c = '}'

theorem EndsValue.endsNumber {r : List Char} (hr : EndsValue r) : EndsNumber r := by
  intro c hc
  rcases hr c hc with rfl | rfl | rfl <;> decide

/-- An encoding whose texts can be told apart from what follows them. -/
def Decodes {α : Type} (enc : α → List Char) (x : α) : Prop :=
  ∀ y r r', EndsValue r → EndsValue r' → enc x ++ r = enc y ++ r' → x = y ∧ r = r'

theorem intercalate_cons {α : Type} (enc : α → List Char) (x : α) (xs : List α) :
    [','].intercalate ((x :: xs).map enc) = enc x ++ xs.flatMap fun y => ',' :: enc y := by
  induction xs generalizing x with
  | nil => simp
  | cons y xs ih =>
    have hcons : [','].intercalate ((x :: y :: xs).map enc) =
        enc x ++ ',' :: [','].intercalate ((y :: xs).map enc) := by
      simp [List.intercalate]
    rw [hcons, ih, List.flatMap_cons]
    rfl

variable {α : Type} {enc : α → List Char} {close : Char}

theorem endsValue_tail (hclose : close = ']' ∨ close = '}') (xs : List α) (r : List Char) :
    EndsValue ((xs.flatMap fun y => ',' :: enc y) ++ close :: r) := by
  rcases xs with _ | ⟨x, xs⟩
  · intro c hc
    obtain rfl := Option.some.inj hc
    exact .inr hclose
  · intro c hc
    obtain rfl := Option.some.inj hc
    exact .inl rfl

/-- The elements behind the first one, each after its comma. -/
theorem tail_append_inj (hclose : close = ']' ∨ close = '}') {xs ys : List α} {r r' : List Char}
    (henc : ∀ x ∈ xs, Decodes enc x)
    (h : (xs.flatMap fun y => ',' :: enc y) ++ close :: r =
      (ys.flatMap fun y => ',' :: enc y) ++ close :: r') : xs = ys ∧ r = r' := by
  have hcomma : close ≠ ',' := by
    rcases hclose with rfl | rfl <;> decide
  induction xs generalizing ys with
  | nil =>
    rcases ys with _ | ⟨y, ys⟩
    · exact ⟨rfl, (List.cons.inj h).2⟩
    · exact absurd (List.cons.inj h).1 hcomma
  | cons x xs ih =>
    rcases ys with _ | ⟨y, ys⟩
    · exact absurd (List.cons.inj h).1.symm hcomma
    · simp only [List.flatMap_cons, List.cons_append, List.append_assoc, List.cons.injEq,
        true_and] at h
      obtain ⟨rfl, hrest⟩ := henc x List.mem_cons_self y _ _ (endsValue_tail hclose _ _)
        (endsValue_tail hclose _ _) h
      obtain ⟨rfl, hr⟩ := ih (fun z hz => henc z (List.mem_cons_of_mem _ hz)) hrest
      exact ⟨rfl, hr⟩

/-- A bracketed sequence says which elements it has and where it ends. -/
theorem sequence_append_inj (hclose : close = ']' ∨ close = '}')
    (hhead : ∀ x r r', enc x ++ r ≠ close :: r') {xs ys : List α} {r r' : List Char}
    (henc : ∀ x ∈ xs, Decodes enc x)
    (h : [','].intercalate (xs.map enc) ++ close :: r =
      [','].intercalate (ys.map enc) ++ close :: r') : xs = ys ∧ r = r' := by
  rcases xs with _ | ⟨x, xs⟩ <;> rcases ys with _ | ⟨y, ys⟩
  · exact ⟨rfl, (List.cons.inj h).2⟩
  · rw [intercalate_cons, List.append_assoc] at h
    exact absurd h.symm (hhead _ _ _)
  · rw [intercalate_cons, List.append_assoc] at h
    exact absurd h (hhead _ _ _)
  · rw [intercalate_cons, intercalate_cons, List.append_assoc, List.append_assoc] at h
    obtain ⟨rfl, hrest⟩ := henc x List.mem_cons_self y _ _ (endsValue_tail hclose _ _)
      (endsValue_tail hclose _ _) h
    obtain ⟨rfl, hr⟩ := tail_append_inj hclose
      (fun z hz => henc z (List.mem_cons_of_mem _ hz)) hrest
    exact ⟨rfl, hr⟩

/-! ## The text determines the value -/

/-- The kinds of value, which the first character of the text tells apart. -/
inductive Kind
  | null
  | boolean
  | number
  | string
  | array
  | object
  deriving DecidableEq

/-- The kind of a value. -/
def kind : Json → Kind
  | .null => .null
  | .boolean _ => .boolean
  | .number _ => .number
  | .string _ => .string
  | .array _ => .array
  | .object _ => .object

/-- The kind of value a character begins. -/
def kindOf (c : Char) : Option Kind :=
  if c = 'n' then some .null
  else if c = 't' ∨ c = 'f' then some .boolean
  else if c.isDigit ∨ c = '-' then some .number
  else if c = '"' then some .string
  else if c = '[' then some .array
  else if c = '{' then some .object
  else none

theorem stringify_head (j : Json) : ∃ c cs, j.stringify = c :: cs ∧ kindOf c = some j.kind := by
  rcases j with _ | (_ | _) | x | s | items | members
  · exact ⟨_, _, rfl, rfl⟩
  · exact ⟨_, _, rfl, rfl⟩
  · exact ⟨_, _, rfl, rfl⟩
  · obtain ⟨c, cs, htext, hc⟩ := x.text_head
    refine ⟨c, cs, htext, ?_⟩
    simp only [kindOf]
    rw [if_neg, if_neg, if_pos hc]
    · rfl
    · rintro (rfl | rfl) <;> exact absurd hc (by decide)
    · rintro rfl
      exact absurd hc (by decide)
  · exact ⟨_, _, rfl, rfl⟩
  · exact ⟨_, _, rfl, rfl⟩
  · exact ⟨_, _, rfl, rfl⟩

theorem kind_eq_of_append {j k : Json} {r r' : List Char}
    (h : j.stringify ++ r = k.stringify ++ r') : j.kind = k.kind := by
  obtain ⟨c, cs, hj, hc⟩ := j.stringify_head
  obtain ⟨c', cs', hk, hc'⟩ := k.stringify_head
  rw [hj, hk] at h
  rw [(List.cons.inj h).1] at hc
  exact Option.some.inj (hc.symm.trans hc')

theorem stringify_append_ne {j : Json} (hclose : kindOf close = none) (r r' : List Char) :
    j.stringify ++ r ≠ close :: r' := by
  intro h
  obtain ⟨c, cs, hj, hc⟩ := j.stringify_head
  rw [hj] at h
  rw [(List.cons.inj h).1, hclose] at hc
  exact absurd hc (Option.some_ne_none _).symm

theorem memberText_append_ne (m : JsString × Json) (r r' : List Char) :
    memberText m ++ r ≠ '}' :: r' := by
  intro h
  exact absurd (List.cons.inj h).1 (by decide)

theorem memberText_decodes {m : JsString × Json} (hvalue : Decodes stringify m.2) :
    Decodes memberText m := by
  intro n r r' hr hr' h
  obtain ⟨key, value⟩ := m
  obtain ⟨key', value'⟩ := n
  simp only [memberText, List.append_assoc, List.cons_append] at h
  obtain ⟨rfl, hrest⟩ := quote_append_inj h
  obtain ⟨rfl, hr⟩ := hvalue value' r r' hr hr' (List.cons.inj hrest).2
  exact ⟨rfl, hr⟩

/-- A value inside a text says where it ends. -/
theorem stringify_decodes (j : Json) : Decodes stringify j := by
  induction j using Json.ind with
  | null =>
    intro k r r' _ _ h
    have hkind := kind_eq_of_append h
    rcases k with _ | b | x | s | items | members <;> cases hkind
    exact ⟨rfl, List.append_cancel_left h⟩
  | boolean b =>
    intro k r r' _ _ h
    have hkind := kind_eq_of_append h
    rcases k with _ | b' | x | s | items | members <;> cases hkind
    rcases b with _ | _ <;> rcases b' with _ | _
    · exact ⟨rfl, List.append_cancel_left h⟩
    · exact absurd (List.cons.inj h).1 (by decide)
    · exact absurd (List.cons.inj h).1 (by decide)
    · exact ⟨rfl, List.append_cancel_left h⟩
  | number x =>
    intro k r r' hr hr' h
    have hkind := kind_eq_of_append h
    rcases k with _ | b | y | s | items | members <;> cases hkind
    obtain ⟨rfl, hrest⟩ := JsNumber.text_append_inj hr.endsNumber hr'.endsNumber h
    exact ⟨rfl, hrest⟩
  | string s =>
    intro k r r' _ _ h
    have hkind := kind_eq_of_append h
    rcases k with _ | b | x | t | items | members <;> cases hkind
    obtain ⟨rfl, hrest⟩ := quote_append_inj h
    exact ⟨rfl, hrest⟩
  | array items ih =>
    intro k r r' _ _ h
    have hkind := kind_eq_of_append h
    rcases k with _ | b | x | s | items' | members <;> cases hkind
    simp only [stringify, texts_eq_map, List.cons_append, List.append_assoc, List.nil_append,
      List.cons.injEq, true_and] at h
    obtain ⟨rfl, hrest⟩ := sequence_append_inj (.inl rfl)
      (fun _ => stringify_append_ne rfl) ih h
    exact ⟨rfl, hrest⟩
  | object members ih =>
    intro k r r' _ _ h
    have hkind := kind_eq_of_append h
    rcases k with _ | b | x | s | items | members' <;> cases hkind
    simp only [stringify, memberTexts_eq_map, List.cons_append, List.append_assoc,
      List.nil_append, List.cons.injEq, true_and] at h
    obtain ⟨rfl, hrest⟩ := sequence_append_inj (.inr rfl) memberText_append_ne
      (fun m hm => memberText_decodes (ih m hm)) h
    exact ⟨rfl, hrest⟩

/-- **`JSON.stringify` loses nothing.** -/
theorem stringify_injective {j k : Json} (h : j.stringify = k.stringify) : j = k :=
  (stringify_decodes j k [] [] (fun _ hc => nomatch hc) (fun _ hc => nomatch hc)
    (congrArg (fun text => text ++ []) h)).1

/-! ## Values up to the order of keys -/

/-- Two members with the same key, and values that `R` relates. -/
inductive SameMember (R : Json → Json → Prop) : JsString × Json → JsString × Json → Prop
  | mk (key : JsString) {v w : Json} : R v w → SameMember R (key, v) (key, w)

/-- The same value, whatever the order in which objects list their keys. -/
inductive Same : Json → Json → Prop
  | null : Same .null .null
  | boolean (b : Bool) : Same (.boolean b) (.boolean b)
  | number (x : JsNumber) : Same (.number x) (.number x)
  | string (s : JsString) : Same (.string s) (.string s)
  /-- arrays are compared element by element -/
  | array {xs ys : List Json} : List.Forall₂ Same xs ys → Same (.array xs) (.array ys)
  /-- objects are compared member by member, after putting one of them in the other's order -/
  | object {ms ns ps : List (JsString × Json)} :
      List.Forall₂ (SameMember Same) ms ns → ns.Perm ps → Same (.object ms) (.object ps)

@[refl] theorem Same.refl (j : Json) : j.Same j := by
  induction j using Json.ind with
  | null => exact .null
  | boolean b => exact .boolean b
  | number x => exact .number x
  | string s => exact .string s
  | array items ih => exact .array (List.forall₂_same.mpr ih)
  | object members ih =>
    exact .object (List.forall₂_same.mpr fun m hm => .mk m.1 (ih m hm)) (.refl _)

mutual

/-- Whether the keys of every object inside a value pass a check. -/
def everyObject (p : List JsString → Bool) : Json → Bool
  | .array items => everyItem p items
  | .object members => p (members.map Prod.fst) && everyMember p members
  | _ => true

/-- `everyObject` of the elements of an array. -/
def everyItem (p : List JsString → Bool) : List Json → Bool
  | [] => true
  | j :: items => j.everyObject p && everyItem p items

/-- `everyObject` of the member values of an object. -/
def everyMember (p : List JsString → Bool) : List (JsString × Json) → Bool
  | [] => true
  | (_, value) :: members => value.everyObject p && everyMember p members

end

theorem everyItem_iff {p : List JsString → Bool} {items : List Json} :
    everyItem p items ↔ ∀ j ∈ items, j.everyObject p := by
  induction items with
  | nil => simp [everyItem]
  | cons j items ih => rw [everyItem, Bool.and_eq_true, ih, List.forall_mem_cons]

theorem everyMember_iff {p : List JsString → Bool} {members : List (JsString × Json)} :
    everyMember p members ↔ ∀ m ∈ members, m.2.everyObject p := by
  induction members with
  | nil => simp [everyMember]
  | cons m members ih =>
    obtain ⟨key, value⟩ := m
    rw [everyMember, Bool.and_eq_true, ih, List.forall_mem_cons]

theorem everyObject_array {p : List JsString → Bool} {items : List Json} :
    (Json.array items).everyObject p ↔ ∀ j ∈ items, j.everyObject p := by
  rw [everyObject, everyItem_iff]

theorem everyObject_object {p : List JsString → Bool} {members : List (JsString × Json)} :
    (Json.object members).everyObject p ↔
      p (members.map Prod.fst) ∧ ∀ m ∈ members, m.2.everyObject p := by
  rw [everyObject, Bool.and_eq_true, everyMember_iff]

/-- No object inside the value lists a key twice, as no object of the language can. -/
def uniqueKeys (j : Json) : Bool := j.everyObject fun keys => decide keys.Nodup

end Json

/-- A JSON value as a program can hold it. -/
structure JsonData where
  /-- the value -/
  value : Json
  /-- keys are not repeated -/
  unique : value.uniqueKeys

end RatelPlatform
