import Mathlib.Data.List.Sort
import RatelPlatform.CanonicalJson
import RatelPlatform.SharedKernel

/-!
# Rows of an imported file

A parsed row is an object of strings. `CsvNormalizer` turns it into a
`RawImportRecord`: the required columns have to be there, the amount a positive
integer as `BigInt` reads it, the date one that `Date` can parse. The record carries
the hash of the row's content, which is what the import recognizes the row by.

What the row is checked against here says nothing of the organization: names are
looked up later.
-/

namespace RatelPlatform

/-! ## Text -/

/-- The code units of a character. -/
def utf16 (c : Char) : JsString :=
  if c.toNat < 0x10000 then [c.toNat.toUInt16]
  else [(0xD800 + (c.toNat - 0x10000) / 0x400).toUInt16,
    (0xDC00 + (c.toNat - 0x10000) % 0x400).toUInt16]

/-- The string of a text without lone surrogates. -/
def JsString.ofText (text : List Char) : JsString := text.flatMap utf16

/-- The value of a digit; letters go on where the decimal digits end. -/
def digitValue (c : Char) : Option ℕ :=
  if '0' ≤ c ∧ c ≤ '9' then some (c.toNat - '0'.toNat)
  else if 'a' ≤ c ∧ c ≤ 'z' then some (c.toNat - 'a'.toNat + 10)
  else if 'A' ≤ c ∧ c ≤ 'Z' then some (c.toNat - 'A'.toNat + 10)
  else none

/-- The number some digits of a base denote, of which there has to be one. -/
def digitsValue (base : ℕ) (digits : List Char) : Option ℕ :=
  if digits = [] then none
  else digits.foldlM (fun n c =>
    ((digitValue c).filter fun d => d < base).map fun d => n * base + d) 0

/-- `StringToBigInt` of a trimmed text: a decimal integer with or without a sign, or
digits of another base behind its mark. Nothing at all is zero. -/
def stringToBigInt : List Char → Option ℤ
  | [] => some 0
  | '+' :: digits => (digitsValue 10 digits).map Int.ofNat
  | '-' :: digits => (digitsValue 10 digits).map fun n => -Int.ofNat n
  | ['0'] => some 0
  | '0' :: mark :: digits =>
    if mark = 'x' ∨ mark = 'X' then (digitsValue 16 digits).map Int.ofNat
    else if mark = 'o' ∨ mark = 'O' then (digitsValue 8 digits).map Int.ofNat
    else if mark = 'b' ∨ mark = 'B' then (digitsValue 2 digits).map Int.ofNat
    else (digitsValue 10 (mark :: digits)).map Int.ofNat
  | digits => (digitsValue 10 digits).map Int.ofNat

example : stringToBigInt "1500".toList = some 1500 ∧ stringToBigInt "0x1F".toList = some 31 ∧
    stringToBigInt "1.5".toList = none := by
  decide

theorem isJsSpace_of_isDigit {c : Char} (hc : c.isDigit) : isJsSpace c = false := by
  have h : 48 ≤ c.toNat ∧ c.toNat ≤ 57 := by
    simpa [Char.isDigit, UInt32.le_iff_toNat_le] using hc
  simp only [isJsSpace, Bool.or_eq_false_iff, Bool.and_eq_false_iff, decide_eq_false_iff_not,
    beq_eq_false_iff_ne]
  omega

/-! ## Rows and records -/

/-- A row: an object whose values are strings. -/
structure CsvRow where
  fields : List (String × String)
  /-- an object has a key once -/
  distinct : (fields.map Prod.fst).Nodup
  deriving DecidableEq

/-- `row[name]?.trim() ?? ''` -/
def CsvRow.trimmed (row : CsvRow) (name : String) : List Char :=
  ((row.fields.lookup name).map trim).getD []

/-- The row as `JSON.stringify` sees it when the keys are given in order. -/
def CsvRow.members (row : CsvRow) : List (JsString × Json) :=
  (row.fields.map fun field =>
    (JsString.ofText field.1.toList, Json.string (.ofText field.2.toList))).insertionSort keyLe

/-- `RawImportRecord` -/
structure RawImportRecord where
  externalId : String
  sourceRecordHash : JsString
  departmentName : String
  categoryName : String
  vendorName : Option String
  amountMinorUnits : ℤ
  currency : String
  expenseDate : JsDate
  description : Option String
  deriving DecidableEq

/-- Why a row is not imported. -/
inductive ImportError
  | csvRowValidation (message : String)
  | importMapping (message : String)
  /-- anything else that is thrown -/
  | unexpected (message : String)
  deriving DecidableEq

/-- `err.message` -/
def ImportError.message : ImportError → String
  | csvRowValidation message => message
  | importMapping message => message
  | unexpected message => message

/-- What the failed row is stored with. -/
def ImportError.recorded : ImportError → String
  | unexpected message => s!"Unexpected error: {message}"
  | e => e.message

/-- What the normalizer takes from its surroundings. -/
structure Runtime where
  /-- the hexadecimal digest of a text -/
  sha256 : List Char → JsString
  /-- `new Date(text)`, unless that is no date -/
  parseDate : List Char → Option JsDate
  /-- `String.prototype.toUpperCase` -/
  toUpperCase : List Char → List Char

variable (runtime : Runtime)

/-- `computeSourceRecordHash` -/
def computeSourceRecordHash (row : CsvRow) : JsString :=
  runtime.sha256 (Json.object row.members).stringify

/-- `text || undefined` -/
def nonEmpty (text : List Char) : Option String :=
  if text = [] then none else some (.ofList text)

/-- Go on only when `p` holds. -/
def ImportError.unless (p : Prop) [Decidable p] (e : ImportError) : Except ImportError Unit :=
  if p then .ok () else .error e

namespace CsvNormalizer

/-- The amount of a row. -/
def amountOf (row : CsvRow) (rowNumber : ℕ) : Except ImportError ℤ :=
  match stringToBigInt (row.trimmed "amountMinorUnits") with
  | none =>
    -- the `SyntaxError` of `BigInt` is not one of the normalizer's own errors
    let text := String.ofList (row.trimmed "amountMinorUnits")
    .error (.unexpected s!"Cannot convert {text} to a BigInt")
  | some amount =>
    if 0 < amount then .ok amount
    else .error (.csvRowValidation s!"Row {rowNumber}: amountMinorUnits must be a positive integer")

/-- The date of a row. -/
def dateOf (row : CsvRow) (rowNumber : ℕ) : Except ImportError JsDate :=
  match (row.fields.lookup "expenseDate").bind fun text => runtime.parseDate (trim text) with
  | none => .error (.csvRowValidation s!"Row {rowNumber}: expenseDate is not a valid date")
  | some expenseDate => .ok expenseDate

/-- `CsvNormalizer.normalize` -/
def normalize (row : CsvRow) (rowNumber : ℕ) : Except ImportError RawImportRecord := do
  ImportError.unless (row.trimmed "department" ≠ [])
    (.csvRowValidation s!"Row {rowNumber}: department is required")
  ImportError.unless (row.trimmed "category" ≠ [])
    (.csvRowValidation s!"Row {rowNumber}: category is required")
  ImportError.unless ((JsString.ofText (row.trimmed "currency")).length = 3)
    (.csvRowValidation s!"Row {rowNumber}: currency must be a 3-letter code")
  let amountMinorUnits ← amountOf row rowNumber
  let expenseDate ← dateOf runtime row rowNumber
  pure
    { externalId := s!"csv-row-{rowNumber}"
      sourceRecordHash := computeSourceRecordHash runtime row
      departmentName := .ofList (row.trimmed "department")
      categoryName := .ofList (row.trimmed "category")
      vendorName := nonEmpty (row.trimmed "vendor")
      amountMinorUnits
      currency := .ofList (runtime.toUpperCase (row.trimmed "currency"))
      expenseDate
      description := nonEmpty (row.trimmed "description") }

variable {runtime} {row : CsvRow} {rowNumber : ℕ} {record : RawImportRecord}

theorem unless_ok {p : Prop} [Decidable p] {e : ImportError} {a : Unit} :
    ImportError.unless p e = .ok a ↔ p := by
  simp only [ImportError.unless]
  split_ifs with h <;> simp [h]

theorem amountOf_ok {amount : ℤ} :
    amountOf row rowNumber = .ok amount ↔
      stringToBigInt (row.trimmed "amountMinorUnits") = some amount ∧ 0 < amount := by
  simp only [amountOf]
  rcases stringToBigInt (row.trimmed "amountMinorUnits") with _ | n
  · simp
  · by_cases hpos : 0 < n
    · simp only [if_pos hpos, Except.ok.injEq, Option.some.injEq]
      refine ⟨?_, ?_⟩
      · rintro rfl
        exact ⟨rfl, hpos⟩
      · exact fun h => h.1
    · simp only [if_neg hpos, Option.some.injEq, reduceCtorEq, false_iff]
      rintro ⟨rfl, h⟩
      exact hpos h

theorem dateOf_ok {date : JsDate} :
    dateOf runtime row rowNumber = .ok date ↔
      ∃ text, row.fields.lookup "expenseDate" = some text ∧
        runtime.parseDate (trim text) = some date := by
  simp only [dateOf]
  rw [← Option.bind_eq_some_iff]
  rcases (row.fields.lookup "expenseDate").bind fun text => runtime.parseDate (trim text) with _ | d
  · simp
  · simp

/-- **What a record says of its row**: the row has the columns that are required, and
the record is what they say. -/
theorem normalize_ok (h : normalize runtime row rowNumber = .ok record) :
    row.trimmed "department" ≠ [] ∧ row.trimmed "category" ≠ [] ∧
      stringToBigInt (row.trimmed "amountMinorUnits") = some record.amountMinorUnits ∧
      0 < record.amountMinorUnits ∧
      record.sourceRecordHash = computeSourceRecordHash runtime row ∧
      record.departmentName = .ofList (row.trimmed "department") ∧
      record.categoryName = .ofList (row.trimmed "category") ∧
      record.vendorName = nonEmpty (row.trimmed "vendor") ∧
      ∃ text, row.fields.lookup "expenseDate" = some text ∧
        runtime.parseDate (trim text) = some record.expenseDate := by
  simp only [normalize, except_bind_ok, unless_ok, amountOf_ok, dateOf_ok, except_pure_ok] at h
  obtain ⟨_, hdepartment, _, hcategory, _, -, amount, ⟨hamount, hpos⟩, date, hdate, rfl⟩ := h
  exact ⟨hdepartment, hcategory, hamount, hpos, rfl, rfl, rfl, rfl, hdate⟩

/-- Rows with the same content are recognized as the same row, wherever they stand. -/
theorem normalize_hash {rowNumber' : ℕ} {record' : RawImportRecord}
    (h : normalize runtime row rowNumber = .ok record)
    (h' : normalize runtime row rowNumber' = .ok record') :
    record.sourceRecordHash = record'.sourceRecordHash := by
  obtain ⟨-, -, -, -, hhash, -⟩ := normalize_ok h
  obtain ⟨-, -, -, -, hhash', -⟩ := normalize_ok h'
  rw [hhash, hhash']

end CsvNormalizer

end RatelPlatform
