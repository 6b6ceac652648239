import RatelPlatform.ByteTexts
import RatelPlatform.ExpenseListing
import RatelPlatform.JsonText

/-!
# Cursors as texts

What a client hands back is a text: the ISO date and the id of the last row of the page, as
JSON, in base64url. `decodeCursor` reads it back (`readCursor_encodeCursor`); of other texts
some are no cursor, and `Date` parses formats that are no business of the pages.
-/

namespace RatelPlatform

/-! ## Dates -/

/-- The year in front of `toISOString`. -/
def readIsoYear (text : List Char) : ℤ :=
  if text.head? = some '-' then -(Nat.ofDigitChars 10 text.tail 0 : ℤ)
  else if text.head? = some '+' then Nat.ofDigitChars 10 text.tail 0
  else Nat.ofDigitChars 10 text 0

/-- The milliseconds that a text in the format of `toISOString` gives. -/
def isoMs (text : List Char) : ℤ :=
  let rest := text.drop (text.length - 20)
  let field (start width : ℕ) : ℤ := Nat.ofDigitChars 10 ((rest.drop start).take width) 0
  daysOf ⟨readIsoYear (text.take (text.length - 20)), field 1 2, field 4 2⟩ * dayMs +
    field 7 2 * 3600000 + field 10 2 * 60000 + field 13 2 * 1000 + field 16 3

/-- The date whose `toISOString` is the text, if there is one. -/
def isoDate (text : List Char) : Option JsDate :=
  if h : -8640000000000000 ≤ isoMs text ∧ isoMs text ≤ 8640000000000000 then
    if JsDate.toISOString ⟨isoMs text, h⟩ = text then some ⟨isoMs text, h⟩ else none
  else none

/-- The characters of an ASCII string. -/
def asciiChars (s : JsString) : Option (List Char) :=
  if ∀ u ∈ s, u.toNat < 128 then some (s.map fun u => Char.ofNat u.toNat) else none

/-- `new Date(text)`, unless it is no date -/
def JsDate.parse (otherFormats : JsString → Option JsDate) (text : JsString) : Option JsDate :=
  match (asciiChars text).bind isoDate with
  | some t => some t
  | none => otherFormats text

/-! ### Reading the fields -/

theorem ofDigitChars_padDigits (width n : ℕ) :
    Nat.ofDigitChars 10 (padDigits width n) 0 = n % 10 ^ width := by
  induction width generalizing n with
  | zero => rw [padDigits, Nat.ofDigitChars_nil, pow_zero, Nat.mod_one]
  | succ width ih =>
    rw [padDigits, Nat.ofDigitChars_append, ih,
      Nat.ofDigitChars_cons_digitChar_of_lt_ten (Nat.mod_lt n (by decide)), Nat.ofDigitChars_nil,
      pow_succ', Nat.mod_mul]
    omega

theorem isDigit_of_mem_padDigits {width n : ℕ} : ∀ c ∈ padDigits width n, c.isDigit := by
  induction width generalizing n with
  | zero => exact fun _ hc => absurd hc List.not_mem_nil
  | succ width ih =>
    intro c hc
    rcases List.mem_append.mp hc with hc | hc
    · exact ih c hc
    · rw [List.mem_singleton.mp hc]
      have key : ∀ d : Fin 10, (Nat.digitChar d.val).isDigit := by decide
      exact key ⟨n % 10, Nat.mod_lt _ (by decide)⟩

/-- The year is read as it was written, sign included. -/
theorem readIsoYear_isoYear {y : ℤ} (hy : -1000000 < y ∧ y < 1000000) :
    readIsoYear (isoYear y) = y := by
  rw [isoYear]
  split_ifs with hfour hneg
  · have hsign : ∀ c : Char, c.isDigit = false → (padDigits 4 y.toNat).head? ≠ some c := by
      intro c hc hhead
      cases hc.symm.trans (isDigit_of_mem_padDigits c (List.mem_of_head? hhead))
    rw [readIsoYear, if_neg (hsign _ rfl), if_neg (hsign _ rfl), ofDigitChars_padDigits]
    omega
  · rw [readIsoYear, List.head?_cons, if_pos rfl, List.tail_cons, ofDigitChars_padDigits]
    omega
  · rw [readIsoYear, List.head?_cons, if_neg (by decide), if_pos rfl, List.tail_cons,
      ofDigitChars_padDigits]
    omega

/-- The fields behind the year stand at fixed places. -/
theorem isoFields {month dom ms : ℕ} (hmonth : month < 100) (hdom : dom < 100)
    (hms : ms < 86400000) {rest : List Char} (hrest : isoMonthDay month dom ++ isoTime ms = rest) :
    Nat.ofDigitChars 10 ((rest.drop 1).take 2) 0 = month ∧
      Nat.ofDigitChars 10 ((rest.drop 4).take 2) 0 = dom ∧
      Nat.ofDigitChars 10 ((rest.drop 7).take 2) 0 * 3600000 +
        Nat.ofDigitChars 10 ((rest.drop 10).take 2) 0 * 60000 +
        Nat.ofDigitChars 10 ((rest.drop 13).take 2) 0 * 1000 +
        Nat.ofDigitChars 10 ((rest.drop 16).take 3) 0 = ms := by
  subst hrest
  refine ⟨?_, ?_, ?_⟩
  · exact (ofDigitChars_padDigits 2 month).trans (Nat.mod_eq_of_lt hmonth)
  · exact (ofDigitChars_padDigits 2 dom).trans (Nat.mod_eq_of_lt hdom)
  · have hhour := ofDigitChars_padDigits 2 (ms / 3600000)
    have hminute := ofDigitChars_padDigits 2 (ms / 60000 % 60)
    have hsecond := ofDigitChars_padDigits 2 (ms / 1000 % 60)
    have hmilli := ofDigitChars_padDigits 3 (ms % 1000)
    refine (congrArg₂ (· + ·) (congrArg₂ (· + ·) (congrArg₂ (· + ·)
      (congrArg (· * 3600000) hhour) (congrArg (· * 60000) hminute))
      (congrArg (· * 1000) hsecond)) hmilli).trans ?_
    omega

/-- **The date is read from its text.** -/
theorem isoMs_toISOString (t : JsDate) : isoMs t.toISOString = t.ms := by
  have hvalid := t.valid
  obtain ⟨hm, hd⟩ := civilFromDays_bounds (t.ms / dayMs)
  have hyear := readIsoYear_isoYear (@civilFromDays_year_bounds (t.ms / dayMs)
    (by unfold dayMs; omega) (by unfold dayMs; omega))
  have hdays := daysOf_civilFromDays (t.ms / dayMs)
  have htime : 0 ≤ t.ms % dayMs ∧ t.ms % dayMs < 86400000 := by
    unfold dayMs
    omega
  have hsplit : t.ms / dayMs * dayMs + t.ms % dayMs = t.ms := by
    rw [mul_comm]
    exact Int.mul_ediv_add_emod _ _
  simp only [JsDate.toISOString, List.append_assoc]
  generalize civilFromDays (t.ms / dayMs) = c at *
  generalize hrest : isoMonthDay c.month.toNat c.dom.toNat ++ isoTime (t.ms % dayMs).toNat = rest
  obtain ⟨hmonth, hdom, hms⟩ := isoFields (by omega) (by omega) (by omega) hrest
  -- the year has two lengths, what stands behind it one
  have hlength : (isoYear c.year ++ rest).length - 20 = (isoYear c.year).length := by
    rw [List.length_append, ← hrest]
    rfl
  simp only [isoMs, hlength, List.take_left', List.drop_left', hyear, hmonth, hdom]
  rw [Int.toNat_of_nonneg (by omega), Int.toNat_of_nonneg (by omega), hdays]
  omega

theorem isoDate_toISOString (t : JsDate) : isoDate t.toISOString = some t := by
  have hms := isoMs_toISOString t
  have hvalid := t.valid
  rw [← hms] at hvalid
  have hmk : (⟨isoMs t.toISOString, hvalid⟩ : JsDate) = t := JsDate.ext hms
  rw [isoDate, dif_pos hvalid, hmk, if_pos rfl]

theorem toNat_asciiUnit {c : Char} (hc : c.toNat < 128) :
    (c.toNat.toUInt16).toNat = c.toNat := by
  rw [Nat.toUInt16_eq, UInt16.toNat_ofNat']
  omega

/-- The units of an ASCII text are its characters. -/
theorem map_ofAscii {text : List Char} (htext : ∀ c ∈ text, c.toNat < 128) :
    (JsString.ofAscii text).map (fun u => Char.ofNat u.toNat) = text := by
  rw [JsString.ofAscii, List.map_map]
  refine (List.map_congr_left fun c hc => ?_).trans (List.map_id text)
  rw [Function.comp_apply, toNat_asciiUnit (htext c hc), Char.ofNat_toNat, id]

theorem asciiChars_ofAscii {text : List Char} (htext : ∀ c ∈ text, c.toNat < 128) :
    asciiChars (.ofAscii text) = some text := by
  rw [asciiChars, if_pos, map_ofAscii htext]
  intro u hu
  obtain ⟨c, hc, rfl⟩ := List.mem_map.mp hu
  rw [toNat_asciiUnit (htext c hc)]
  exact htext c hc

/-- **`Date` parses what `toISOString` wrote.** -/
theorem JsDate.parse_toISOString (otherFormats : JsString → Option JsDate) (t : JsDate) :
    JsDate.parse otherFormats (.ofAscii t.toISOString) = some t := by
  rw [JsDate.parse, asciiChars_ofAscii t.toISOString_ascii, Option.bind_some, isoDate_toISOString]

/-! ## Encoding and decoding -/

/-- How ids are written, and where the collation of the database has a text among them. -/
structure IdColumn where
  text : Id → JsString
  place : JsString → Id
  place_text : ∀ id, place (text id) = id

/-- Why there is no page. -/
inductive CursorError
  /-- `RangeError('Invalid cursor')` -/
  | invalidCursor
  /-- the query refuses its arguments -/
  | invalidQuery
  deriving DecidableEq

/-- How the database writes ids, and what the language leaves to its engine. -/
structure CursorRuntime where
  ids : IdColumn
  /-- the double nearest to a numeral -/
  readNumber : List Char → Option JsNumber
  /-- the formats `Date` parses besides that of `toISOString` -/
  otherFormats : JsString → Option JsDate
  /-- what a query makes of a cursor that has not the declared type -/
  coerce : Json → Except CursorError (Option Cursor)

namespace CursorRuntime

variable (r : CursorRuntime)

/-- `{ createdAt: createdAt.toISOString(), id }` -/
def cursorJson (c : Cursor) : Json :=
  .object [(js "createdAt", .string (.ofAscii c.createdAt.toISOString)),
    (js "id", .string (r.ids.text c.id))]

/-- `encodeCursor` -/
def encodeCursor (c : Cursor) : List Char :=
  toBase64url (utf8Encode (r.cursorJson c).stringify)

/-- `decodeCursor` -/
def decodeCursor (encoded : List Char) : Except CursorError Json :=
  match Json.parse r.readNumber (utf8Decode (fromBase64url encoded)) with
  | some json => .ok json
  | none => .error .invalidCursor

/-- The conditions a query makes of a decoded cursor: `new Date(cursor.createdAt)` and
`cursor.id`. -/
def cursorOf (json : Json) : Except CursorError (Option Cursor) :=
  match json.member (js "createdAt"), json.member (js "id") with
  | some (.string createdAt), some (.string id) =>
    match JsDate.parse r.otherFormats createdAt with
    | some date => .ok (some ⟨date, r.ids.place id⟩)
    | none => .error .invalidQuery
  | _, _ => r.coerce json

/-- `query.cursor ? decodeCursor(query.cursor) : undefined`, as the query reads it. -/
def readCursor : Option (List Char) → Except CursorError (Option Cursor)
  | none => .ok none
  | some [] => .ok none
  | some (c :: encoded) => do
    let json ← r.decodeCursor (c :: encoded)
    r.cursorOf json

variable {r}

/-- **A cursor is read back.** -/
theorem readCursor_encodeCursor (c : Cursor) :
    r.readCursor (some (r.encodeCursor c)) = .ok (some c) := by
  have hparse := @Json.parse_stringify r.readNumber
    (js "createdAt", .ofAscii c.createdAt.toISOString) [(js "id", r.ids.text c.id)]
  have hdecode : r.decodeCursor (r.encodeCursor c) = .ok (r.cursorJson c) := by
    rw [decodeCursor, encodeCursor, fromBase64url_toBase64url, utf8Decode_utf8Encode]
    simp only [List.map_cons, List.map_nil] at hparse
    rw [cursorJson, hparse]
  have hcursor : r.cursorOf (r.cursorJson c) = .ok (some c) := by
    have hdate : (r.cursorJson c).member (js "createdAt") =
        some (.string (.ofAscii c.createdAt.toISOString)) := rfl
    have hid : (r.cursorJson c).member (js "id") = some (.string (r.ids.text c.id)) := rfl
    rw [cursorOf, hdate, hid]
    simp only [JsDate.parse_toISOString, r.ids.place_text]
  rcases hencoded : r.encodeCursor c with _ | ⟨first, rest⟩
  · -- an empty text is no JSON
    rw [hencoded] at hdecode
    cases hdecode
  · rw [hencoded] at hdecode
    rw [readCursor, hdecode]
    exact hcursor

end CursorRuntime

end RatelPlatform
