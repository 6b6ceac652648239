import RatelPlatform.CsvNormalizer
import RatelPlatform.Json

/-!
# Reading JSON text

`JSON.parse`, by recursive descent. Every call but those from the elements of an array to a
value has consumed a character, so twice the length of the text is fuel enough. How a numeral
is rounded to a double is a parameter. Objects whose values are read come back as they were
written (`parse_object`).
-/

namespace RatelPlatform

/-! ## Strings -/

/-- The number of a hexadecimal digit, of either case. -/
def hexDigitValue (c : Char) : Option ℕ := (digitValue c).filter fun d => d < 16

/-- The code unit of four hexadecimal digits. -/
def hexUnit (a b c d : Char) : Option UInt16 := do
  let a ← hexDigitValue a
  let b ← hexDigitValue b
  let c ← hexDigitValue c
  let d ← hexDigitValue d
  pure (UInt16.ofNat (a * 4096 + b * 256 + c * 16 + d))

/-- What a character behind a backslash stands for, `u` apart. -/
def unescaped (e : Char) : Option UInt16 :=
  if e = 'b' then some 0x08
  else if e = 't' then some 0x09
  else if e = 'n' then some 0x0A
  else if e = 'f' then some 0x0C
  else if e = 'r' then some 0x0D
  else if e = '"' then some 0x22
  else if e = '\\' then some 0x5C
  else if e = '/' then some 0x2F
  else none

/-- Units in front of a string that is read. -/
def prependUnits (units : JsString) (read : Option (JsString × List Char)) :
    Option (JsString × List Char) :=
  read.map fun r => (units ++ r.1, r.2)

/-- The string behind an opening quote, and what stands behind its closing one. -/
def readString : List Char → Option (JsString × List Char)
  | [] => none
  | c :: rest =>
    if c = '"' then some ([], rest)
    else if c = '\\' then
      match rest with
      | 'u' :: a :: b :: c :: d :: rest =>
        (hexUnit a b c d).bind fun u => prependUnits [u] (readString rest)
      | e :: rest => (unescaped e).bind fun u => prependUnits [u] (readString rest)
      | [] => none
    -- control characters have to be escaped
    else if c.toNat < 0x20 then none
    else prependUnits (utf16 c) (readString rest)

theorem hexDigitValue_digitChar {n : ℕ} (hn : n < 16) :
    hexDigitValue (Nat.digitChar n) = some n := by
  have key : ∀ n : Fin 16, hexDigitValue (Nat.digitChar n) = some n.val := by decide
  exact key ⟨n, hn⟩

theorem hexUnit_hex4 (u : UInt16) :
    hexUnit (Nat.digitChar (u.toNat / 4096)) (Nat.digitChar (u.toNat / 256 % 16))
      (Nat.digitChar (u.toNat / 16 % 16)) (Nat.digitChar (u.toNat % 16)) = some u := by
  have hu := u.toNat_lt
  rw [hexUnit, hexDigitValue_digitChar (by omega), hexDigitValue_digitChar (by omega),
    hexDigitValue_digitChar (by omega), hexDigitValue_digitChar (by omega)]
  refine congrArg some ?_
  rw [show u.toNat / 4096 * 4096 + u.toNat / 256 % 16 * 256 + u.toNat / 16 % 16 * 16 +
    u.toNat % 16 = u.toNat by omega, UInt16.ofNat_toNat]

theorem unescaped_shortEscape {n : ℕ} {e : Char} (h : shortEscape n = some e) :
    unescaped e = some (UInt16.ofNat n) := by
  simp only [shortEscape] at h
  split at h <;> cases h <;> rfl

/-- The units of a code point are those of its character. -/
theorem utf16_eq_units {p : CodePoint} {c : Char} (h : c.toNat = p.value) : utf16 c = p.units := by
  rcases p with u | ⟨lead, trail, hpair⟩
  · have hu := u.toNat_lt
    simp only [CodePoint.value] at h
    rw [utf16, if_pos (by omega), h, Nat.toUInt16_eq, UInt16.ofNat_toNat]
    rfl
  · simp only [isLead, isTrail, Bool.and_eq_true, decide_eq_true_eq] at hpair
    simp only [CodePoint.value] at h
    rw [utf16, if_neg (by omega), h,
      show 0xD800 + ((lead.toNat - 0xD800) * 0x400 + (trail.toNat - 0xDC00) + 0x10000 -
        0x10000) / 0x400 = lead.toNat by omega,
      show 0xDC00 + ((lead.toNat - 0xD800) * 0x400 + (trail.toNat - 0xDC00) + 0x10000 -
        0x10000) % 0x400 = trail.toNat by omega,
      Nat.toUInt16_eq, Nat.toUInt16_eq, UInt16.ofNat_toNat, UInt16.ofNat_toNat]
    rfl

/-- A code point below the surrogate pairs is one unit. -/
theorem CodePoint.eq_unit {p : CodePoint} (h : p.value < 65536) : ∃ u, p = .unit u := by
  rcases p with u | ⟨lead, trail, hpair⟩
  · exact ⟨u, rfl⟩
  · simp only [CodePoint.value] at h
    omega

/-- Every code point is read from its escape. -/
theorem readString_escape (p : CodePoint) (rest : List Char) :
    readString (escape p ++ rest) = prependUnits p.units (readString rest) := by
  rcases escape_cases p with ⟨e, he, hp⟩ | ⟨hlt, hp⟩ | ⟨c, hslash, hquote, hc, hp⟩
  · have hsmall : p.value < 65536 := by
      simp only [shortEscape] at he
      split at he <;> first | omega | cases he
    obtain ⟨u, rfl⟩ := CodePoint.eq_unit hsmall
    rw [hp]
    simp only [List.cons_append, List.nil_append]
    rw [readString, unescaped_shortEscape he, CodePoint.value, UInt16.ofNat_toNat]
    · rfl
    · exact fun _ _ _ _ _ hu _ => shortEscape_ne_u he hu
  · obtain ⟨u, rfl⟩ := CodePoint.eq_unit hlt
    rw [hp]
    simp only [hex4, List.cons_append, List.nil_append]
    rw [readString, CodePoint.value, hexUnit_hex4]
    rfl
  · -- a control character would have been escaped
    have hcontrol : ¬ c.toNat < 0x20 := by
      intro hlt
      rw [hc] at hlt
      simp only [escape] at hp
      split at hp
      · exact absurd (List.cons.inj hp).2 (List.cons_ne_nil _ _)
      · rw [if_pos (.inl hlt)] at hp
        exact absurd (List.cons.inj hp).2 (List.cons_ne_nil _ _)
    rw [hp, List.singleton_append, readString.eq_def]
    simp only [if_neg hquote, if_neg hslash, if_neg hcontrol, utf16_eq_units hc]

/-- **A quoted string is read back**, whatever stands behind it. -/
theorem readString_quote (s : JsString) (rest : List Char) :
    readString ((codePoints s).flatMap escape ++ '"' :: rest) = some (s, rest) := by
  have hread : ∀ ps : List CodePoint, readString (ps.flatMap escape ++ '"' :: rest) =
      some (ps.flatMap CodePoint.units, rest) := by
    intro ps
    induction ps with
    | nil => rw [List.flatMap_nil, List.nil_append, readString.eq_def]; rfl
    | cons p ps ih =>
      rw [List.flatMap_cons, List.append_assoc, readString_escape, ih, List.flatMap_cons]
      rfl
  rw [hread, flatMap_units_codePoints]

/-! ## Values -/

/-- The white space between tokens. -/
def isJsonSpace (c : Char) : Bool := c = ' ' || c = '\t' || c = '\n' || c = '\r'

/-- What stands behind the white space. -/
def skipSpace (text : List Char) : List Char := text.dropWhile isJsonSpace

/-- What stands behind a word. -/
def expect (word text : List Char) : Option (List Char) :=
  if word.isPrefixOf text then some (text.drop word.length) else none

/-- The characters numerals are made of. -/
def isNumeralChar (c : Char) : Bool :=
  c.isDigit || c = '-' || c = '+' || c = '.' || c = 'e' || c = 'E'

section

variable (readNumber : List Char → Option JsNumber)

mutual

/-- A value, and what stands behind it. -/
def readValue : ℕ → List Char → Option (Json × List Char)
  | 0, _ => none
  | fuel + 1, text =>
    match skipSpace text with
    | [] => none
    | c :: rest =>
      match Json.kindOf c with
      | none => none
      | some .null => (expect "null".toList (c :: rest)).map fun rest => (.null, rest)
      | some .boolean =>
        ((expect "true".toList (c :: rest)).map fun rest => (.boolean true, rest)) <|>
          (expect "false".toList (c :: rest)).map fun rest => (.boolean false, rest)
      | some .number =>
        (readNumber ((c :: rest).takeWhile isNumeralChar)).map fun x =>
          (.number x, (c :: rest).dropWhile isNumeralChar)
      | some .string => (readString rest).map fun r => (.string r.1, r.2)
      | some .array =>
        match expect [']'] (skipSpace rest) with
        | some rest => some (.array [], rest)
        | none => (readItems fuel rest).map fun r => (.array r.1, r.2)
      | some .object =>
        match expect ['}'] (skipSpace rest) with
        | some rest => some (.object [], rest)
        | none => (readMembers fuel rest).map fun r => (.object r.1, r.2)

/-- The elements of an array, and what stands behind its bracket. -/
def readItems : ℕ → List Char → Option (List Json × List Char)
  | 0, _ => none
  | fuel + 1, text => do
    let (item, rest) ← readValue fuel text
    match skipSpace rest with
    | ',' :: rest => (readItems fuel rest).map fun r => (item :: r.1, r.2)
    | ']' :: rest => some ([item], rest)
    | _ => none

/-- The members of an object in the order of the text, and what stands behind its brace. -/
def readMembers : ℕ → List Char → Option (List (JsString × Json) × List Char)
  | 0, _ => none
  | fuel + 1, text => do
    let rest ← expect ['"'] (skipSpace text)
    let (key, rest) ← readString rest
    let rest ← expect [':'] (skipSpace rest)
    let (value, rest) ← readValue fuel rest
    match skipSpace rest with
    | ',' :: rest => (readMembers fuel rest).map fun r => ((key, value) :: r.1, r.2)
    | '}' :: rest => some ([(key, value)], rest)
    | _ => none

end

/-- `JSON.parse`. Of members with one key the last counts, see `Json.member`. -/
def Json.parse (text : List Char) : Option Json :=
  match readValue readNumber (2 * text.length + 2) text with
  | none => none
  | some (value, rest) => if skipSpace rest = [] then some value else none

/-! ## Reading what was written -/

/-- With that fuel the value is read from its text, whatever stands behind it. -/
def Reads (n : ℕ) (j : Json) : Prop :=
  ∀ fuel, n ≤ fuel → ∀ rest, readValue readNumber fuel (j.stringify ++ rest) = some (j, rest)

variable {readNumber}

theorem skipSpace_cons {c : Char} (hc : isJsonSpace c = false) (rest : List Char) :
    skipSpace (c :: rest) = c :: rest := by
  rw [skipSpace, List.dropWhile_cons_of_neg (by rw [hc]; exact Bool.false_ne_true)]

theorem reads_string (s : JsString) : Reads readNumber 1 (.string s) := by
  intro fuel hfuel rest
  obtain ⟨fuel, rfl⟩ := Nat.exists_eq_add_of_le' hfuel
  rw [Json.stringify, quote, List.cons_append, List.cons_append, List.append_assoc,
    List.singleton_append, readValue, skipSpace_cons rfl]
  simp only [show Json.kindOf '"' = some .string from rfl, readString_quote]
  rfl

/-- A member is read up to where its value ends. -/
theorem readMembers_memberText {n : ℕ} {m : JsString × Json} (hvalue : Reads readNumber n m.2)
    {fuel : ℕ} (hfuel : n ≤ fuel) (rest : List Char) :
    readMembers readNumber (fuel + 1) (Json.memberText m ++ rest) =
      match skipSpace rest with
      | ',' :: rest => (readMembers readNumber fuel rest).map fun r => (m :: r.1, r.2)
      | '}' :: rest => some ([m], rest)
      | _ => none := by
  rw [Json.memberText, quote, List.append_assoc, List.cons_append, List.cons_append,
    List.append_assoc, List.cons_append, List.cons_append, List.nil_append, readMembers,
    skipSpace_cons rfl]
  simp only [expect, List.isPrefixOf_cons_cons_self, List.isPrefixOf_nil_left, if_true,
    List.length_singleton, List.drop_succ_cons, List.drop_zero, Option.bind_eq_bind,
    Option.bind_some, readString_quote, skipSpace_cons (show isJsonSpace ':' = false from rfl),
    hvalue fuel hfuel rest]

/-- The members between the braces are read in their order. -/
theorem readMembers_text {n : ℕ} {m : JsString × Json} {members : List (JsString × Json)}
    (hvalues : ∀ m' ∈ m :: members, Reads readNumber n m'.2) {fuel : ℕ}
    (hfuel : n + members.length + 1 ≤ fuel) (rest : List Char) :
    readMembers readNumber fuel (Json.memberText m ++
      ((members.flatMap fun m' => ',' :: Json.memberText m') ++ '}' :: rest)) =
        some (m :: members, rest) := by
  obtain ⟨fuel, rfl⟩ := Nat.exists_eq_add_of_le' (Nat.le_of_add_left_le hfuel)
  have hm := hvalues m List.mem_cons_self
  induction members generalizing m fuel with
  | nil =>
    rw [readMembers_memberText hm (by omega), List.flatMap_nil, List.nil_append,
      skipSpace_cons rfl]
    rfl
  | cons m' members ih =>
    rw [List.length_cons] at hfuel
    obtain ⟨fuel, rfl⟩ := Nat.exists_eq_add_of_le' (show 1 ≤ fuel by omega)
    have hrest := List.forall_mem_cons.mp hvalues
    rw [readMembers_memberText hm (by omega), List.flatMap_cons, List.cons_append,
      List.cons_append, skipSpace_cons rfl]
    simp only [List.append_assoc]
    rw [ih hrest.2 fuel (by omega) (hrest.2 m' List.mem_cons_self)]
    rfl

/-- An object is read when the values of its members are. -/
theorem reads_object {n : ℕ} {m : JsString × Json} {members : List (JsString × Json)}
    (hvalues : ∀ m' ∈ m :: members, Reads readNumber n m'.2) :
    Reads readNumber (n + members.length + 2) (.object (m :: members)) := by
  intro fuel hfuel rest
  obtain ⟨fuel, rfl⟩ := Nat.exists_eq_add_of_le' (Nat.le_of_add_left_le hfuel)
  rw [Json.stringify, Json.memberTexts_eq_map, Json.intercalate_cons, List.cons_append,
    List.cons_append, List.append_assoc, List.append_assoc, List.singleton_append, readValue,
    skipSpace_cons rfl]
  -- a member begins with a quote, so the braces are not empty
  have hquote : expect ['}'] (skipSpace (Json.memberText m ++
      ((members.flatMap fun m' => ',' :: Json.memberText m') ++ '}' :: rest))) = none := by
    rw [Json.memberText, quote, List.cons_append, List.cons_append, List.cons_append,
      skipSpace_cons rfl]
    rfl
  simp only [show Json.kindOf '{' = some .object from rfl, hquote,
    readMembers_text hvalues (show n + members.length + 1 ≤ fuel + 1 by omega)]
  rfl

theorem length_le_flatMap {α : Type} (enc : α → List Char) (xs : List α) :
    xs.length ≤ (xs.flatMap fun x => ',' :: enc x).length := by
  induction xs with
  | nil => exact le_rfl
  | cons x xs ih =>
    rw [List.flatMap_cons, List.length_append, List.length_cons, List.length_cons]
    omega

/-- **`JSON.parse` reads what `JSON.stringify` wrote**, for objects of strings. -/
theorem Json.parse_stringify (m : JsString × JsString) (members : List (JsString × JsString)) :
    parse readNumber (object ((m :: members).map fun m => (m.1, .string m.2))).stringify =
      some (object ((m :: members).map fun m => (m.1, .string m.2))) := by
  have hvalues : ∀ m' ∈ (m :: members).map fun m => (m.1, Json.string m.2),
      Reads readNumber 1 m'.2 := by
    intro m' hm'
    obtain ⟨m, -, rfl⟩ := List.mem_map.mp hm'
    exact reads_string m.2
  have hreads : Reads readNumber (1 + members.length + 2)
      (object ((m :: members).map fun m => (m.1, .string m.2))) := by
    have hobject := reads_object hvalues
    rwa [List.length_map] at hobject
  have hlength : members.length + 2 ≤
      (object ((m :: members).map fun m => (m.1, .string m.2))).stringify.length := by
    have htail := length_le_flatMap memberText (members.map fun m => (m.1, Json.string m.2))
    rw [List.length_map] at htail
    rw [stringify, memberTexts_eq_map, List.map_cons, intercalate_cons]
    simp only [List.length_cons, List.length_append, List.length_nil]
    omega
  have htext := hreads (2 * (object ((m :: members).map fun m =>
    (m.1, .string m.2))).stringify.length + 2) (by omega) []
  rw [List.append_nil] at htext
  rw [parse, htext]
  rfl

/-- The value of a key: the last one, if a text has several. -/
def Json.member (key : JsString) : Json → Option Json
  | .object members => (members.reverse.find? fun m => m.1 = key).map Prod.snd
  | _ => none

example : ((Json.parse (fun _ => none)
    "\x7b \"a\" : [true, null], \"a\": \"\\u0041\" \x7d".toList).bind
      (Json.member (js "a"))) matches some (.string [0x41]) := by
  decide +kernel

end

end RatelPlatform
