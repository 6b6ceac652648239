import RatelPlatform.CsvNormalizer
import RatelPlatform.NamedColumns

/-!
# Column mappings

A saved mapping says for each field of an import which column of the file it is in. With it
`CsvProviderAdapter.parse` reads a file of any headers; without one the headers have to be the
fields themselves. Either way papaparse has split the file, with trimmed headers and later
columns of one name numbered.

A mapped file is meant to reach the normalizer like the same file with its headers renamed.
It does when each field is read from the column that the renamed file heads with it
(`parses_as_renamed_iff`). A header with blanks around it that the mapping spells as the file
does is not found: the adapter knows only the trimmed one.
-/

namespace RatelPlatform

/-! ## Fields and mappings -/

def REQUIRED_CSV_FIELDS : List String :=
  ["department", "category", "amountMinorUnits", "currency", "expenseDate"]

def OPTIONAL_CSV_FIELDS : List String := ["vendor", "description"]

def CANONICAL_CSV_FIELDS : List String := REQUIRED_CSV_FIELDS ++ OPTIONAL_CSV_FIELDS

def isCanonicalCsvField (key : String) : Bool := CANONICAL_CSV_FIELDS.contains key

/-- A value in a mapping as it was sent or stored. -/
inductive MappingValue
  | string (value : String)
  /-- no string -/
  | other
  deriving DecidableEq

/-- A mapping that is an object. -/
structure ColumnMapping where
  members : List (String × MappingValue)
  /-- an object has a key once -/
  distinct : (members.map Prod.fst).Nodup

/-- What is sent as a mapping: `unknown`. -/
inductive SentMapping
  | object (mapping : ColumnMapping)
  /-- no object, or an array -/
  | other

/-- `isUsableHeader`; `none` is `undefined` -/
def isUsableHeader : Option MappingValue → Bool
  | some (.string value) => trim value ≠ []
  | _ => false

/-- `validateColumnMappingShape` -/
def validateColumnMappingShape : SentMapping → List String
  | .other => ["Mapping must be an object of canonical field -> source column header"]
  | .object mapping =>
    let unknownKeys := (mapping.members.map Prod.fst).filter fun k => !isCanonicalCsvField k
    let missingRequired := REQUIRED_CSV_FIELDS.filter fun f =>
      !isUsableHeader (mapping.members.lookup f)
    let unusableOptional := OPTIONAL_CSV_FIELDS.filter fun f =>
      (mapping.members.lookup f).isSome && !isUsableHeader (mapping.members.lookup f)
    (if unknownKeys = [] then [] else
      ["Unknown field(s): " ++ ", ".intercalate unknownKeys ++ ". Valid fields are: " ++
        ", ".intercalate CANONICAL_CSV_FIELDS]) ++
    (if missingRequired = [] then [] else
      ["Missing or invalid required field(s): " ++ ", ".intercalate missingRequired]) ++
    (if unusableOptional = [] then [] else
      ["Field(s) mapped to an empty or non-string source column: " ++
        ", ".intercalate unusableOptional])

/-- `InvalidColumnMappingError` -/
def invalidColumnMapping (problems : List String) : String :=
  "Invalid column mapping: " ++ "; ".intercalate problems

/-- A row of `column_mappings`. -/
structure ColumnMappingRow where
  organizationId : Id
  name : String
  mapping : SentMapping

/-- `SaveColumnMappingHandler.execute`: the mappings after it, one for each name of an
organization, or the message of what is thrown. -/
def SaveColumnMappingHandler.execute (rows : List ColumnMappingRow) (cmd : ColumnMappingRow) :
    Except String (List ColumnMappingRow) :=
  match validateColumnMappingShape cmd.mapping with
  | [] =>
    if rows.any fun row => row.organizationId = cmd.organizationId ∧ row.name = cmd.name then
      .ok (rows.map fun row =>
        if row.organizationId = cmd.organizationId ∧ row.name = cmd.name then cmd else row)
    else .ok (rows ++ [cmd])
  | problems => .error (invalidColumnMapping problems)

/-! ## What papaparse returns -/

/-- The type of an error of papaparse. -/
inductive ParseErrorType
  | quotes
  | delimiter
  | fieldMismatch
  deriving DecidableEq

/-- What papaparse finds wrong with a file; `row` is the record it stands at, if it is one. -/
structure ParseError where
  type : ParseErrorType
  row : Option ℕ
  message : String
  deriving DecidableEq

/-- What papaparse returns for a file with a header. -/
structure ParseResult where
  data : List CsvRow
  errors : List ParseError
  /-- `meta.fields` -/
  fields : List String

/-- `fatalErrors` -/
def ParseResult.fatalErrors (result : ParseResult) : List ParseError :=
  result.errors.filter fun e => e.type ≠ .delimiter

/-- `missing` -/
def ParseResult.missing (result : ParseResult) : List String :=
  REQUIRED_CSV_FIELDS.filter fun h => h ∉ result.fields

/-! ## The adapter -/

namespace ColumnMapping

/-- The column a field is mapped to, if that is neither missing nor empty. -/
def source (mapping : ColumnMapping) (field : String) : Option String :=
  match mapping.members.lookup field with
  | some (.string value) => if value = "" then none else some value
  | _ => none

/-- `row[sourceHeader]` for a member of the mapping; `none` is `undefined` -/
def cell (mapping : ColumnMapping) (row : CsvRow) (canonical : String) : Option String :=
  if isCanonicalCsvField canonical then
    (mapping.source canonical).bind fun sourceHeader => row.fields.lookup sourceHeader
  else none

/-- The members of a row once its fields are read from the columns they are mapped to; what is
`undefined` is left out. -/
def remapped (mapping : ColumnMapping) (row : CsvRow) : List (String × String) :=
  (mapping.members.map Prod.fst).filterMap fun canonical =>
    (mapping.cell row canonical).map (canonical, ·)

theorem remapped_distinct (mapping : ColumnMapping) (row : CsvRow) :
    ((mapping.remapped row).map Prod.fst).Nodup := by
  refine mapping.distinct.sublist ?_
  rw [remapped]
  induction mapping.members.map Prod.fst with
  | nil => exact .slnil
  | cons canonical keys ih =>
    rw [List.filterMap_cons]
    rcases mapping.cell row canonical with _ | cell
    · exact ih.cons _
    · exact ih.cons_cons _

/-- One row with a mapping. -/
def remap (mapping : ColumnMapping) (row : CsvRow) : CsvRow :=
  ⟨mapping.remapped row, mapping.remapped_distinct row⟩

/-- The message of the first member whose column the file does not have. -/
def notFound (mapping : ColumnMapping) (actualHeaders : List String) : Option String :=
  mapping.members.findSome? fun (canonical, value) =>
    match value with
    | .string sourceHeader =>
      if sourceHeader ≠ "" ∧ sourceHeader ∉ actualHeaders then
        some ("Mapped column \"" ++ sourceHeader ++ "\" (for \"" ++ canonical ++
          "\") was not found in the uploaded file. File headers: " ++
          ", ".intercalate actualHeaders)
      else none
    | .other => none

end ColumnMapping

namespace CsvProviderAdapter

/-- The message of a file that papaparse could not split. -/
def parseFailed (e : ParseError) : String :=
  "CSV parse failed at row " ++ (e.row.map toString).getD "undefined" ++ ": " ++ e.message

/-- `CsvProviderAdapter.parse`, of what papaparse has returned: the rows, or the message of the
`CsvParseError`. -/
def parse (result : ParseResult) (mapping : Option SentMapping) : Except String (List CsvRow) :=
  match result.fatalErrors with
  | e :: _ => .error (parseFailed e)
  | [] =>
    match mapping with
    | some mapping =>
      match validateColumnMappingShape mapping, mapping with
      | [], .object mapping =>
        match mapping.notFound result.fields with
        | some message => .error message
        | none => .ok (result.data.map mapping.remap)
      | problems, _ => .error (invalidColumnMapping problems)
    | none =>
      match result.missing with
      | [] => .ok result.data
      | missing =>
        .error ("Missing required column(s): " ++ ", ".intercalate missing ++
          ". Save a column mapping if your file uses different header names.")

end CsvProviderAdapter

/-! ## Files -/

/-- `h.trim()` -/
def transformHeader (h : String) : String := .ofList (trim h)

/-- A file split into cells, without its empty lines. -/
structure CsvFile where
  /-- as written -/
  header : List String
  rows : List (List String)
  /-- what goes wrong while splitting -/
  errors : List ParseError

namespace CsvFile

/-- Nothing is wrong but that the delimiter may have had to be guessed, and every row has a cell
for each column. -/
def WellFormed (file : CsvFile) : Prop :=
  (∀ e ∈ file.errors, e.type = .delimiter) ∧ ∀ row ∈ file.rows, row.length = file.header.length

instance (file : CsvFile) : Decidable file.WellFormed := inferInstanceAs (Decidable (_ ∧ _))

/-- How papaparse numbers a header that occurs again. -/
def numbered (header : String) (n : ℕ) : String := header ++ "_" ++ toString n

/-- What papaparse documents to return: the trimmed headers, numbered where they occur again;
an error where the file is not well-formed; else each row with its cells under the headers. -/
structure ParsesTo (file : CsvFile) (result : ParseResult) : Prop where
  fields : Distinguished numbered (file.header.map transformHeader) result.fields
  fields_nodup : result.fields.Nodup
  errors : (∃ e ∈ result.errors, e.type ≠ .delimiter) ↔ ¬ file.WellFormed
  data : file.WellFormed →
    result.data.map CsvRow.fields = file.rows.map fun row => result.fields.zip row

end CsvFile

namespace ColumnMapping

/-- The fields that are mapped to a column. -/
def fieldsOf (mapping : ColumnMapping) (header : String) : List String :=
  CANONICAL_CSV_FIELDS.filter fun field => mapping.source field = some header

/-- What a column is headed with instead; the column is there once for each field that is
mapped to it. -/
def headings (mapping : ColumnMapping) (header : String) : List String :=
  if mapping.fieldsOf header = [] then [header] else mapping.fieldsOf header

end ColumnMapping

/-- The same file with the mapped headers renamed to the fields. -/
def CsvFile.renamed (mapping : ColumnMapping) (file : CsvFile) : CsvFile where
  header := file.header.flatMap mapping.headings
  rows := file.rows.map fun row =>
    relabelRow mapping.headings file.header row ++ row.drop file.header.length
  errors := file.errors

/-- With the mapping the file is parsed exactly when it is well-formed, and the rows have the
fields they have when the renamed file is parsed without one. -/
def ParsesAsRenamed (mapping : ColumnMapping) (file : CsvFile) (result result' : ParseResult) :
    Prop :=
  ((∃ rows, CsvProviderAdapter.parse result (some (.object mapping)) = .ok rows) ↔
      file.WellFormed) ∧
    ∀ rows, CsvProviderAdapter.parse result (some (.object mapping)) = .ok rows →
      ∃ rows', CsvProviderAdapter.parse result' none = .ok rows' ∧
        List.Forall₂ (fun row row' => ∀ field ∈ CANONICAL_CSV_FIELDS,
          row.fields.lookup field = row'.fields.lookup field) rows rows'

/-- **The condition**: each field is read from the column that the renamed file heads with it,
which is the first one. -/
def ReadsRenamedColumns (mapping : ColumnMapping) (header : List String) : Prop :=
  ∀ field ∈ CANONICAL_CSV_FIELDS,
    ((mapping.source field).bind fun sourceHeader =>
      header.findIdx? fun h => transformHeader h = sourceHeader) =
    header.findIdx? fun h => field ∈ (mapping.headings h).map transformHeader

instance (mapping : ColumnMapping) (header : List String) :
    Decidable (ReadsRenamedColumns mapping header) :=
  inferInstanceAs (Decidable (∀ field ∈ CANONICAL_CSV_FIELDS, _ = _))

/-! ## Accepted mappings -/

section

variable {mapping : ColumnMapping} {result : ParseResult} {rows : List CsvRow}

/-- What is accepted names a column for every required field and for some optional ones, and
nothing else. -/
theorem accepted_iff : validateColumnMappingShape (.object mapping) = [] ↔
    (∀ k ∈ mapping.members.map Prod.fst, k ∈ CANONICAL_CSV_FIELDS) ∧
    (∀ f ∈ REQUIRED_CSV_FIELDS, isUsableHeader (mapping.members.lookup f)) ∧
    ∀ f ∈ OPTIONAL_CSV_FIELDS, (mapping.members.lookup f).isSome →
      isUsableHeader (mapping.members.lookup f) := by
  have hempty : ∀ {xs : List String} {message : String},
      (if xs = [] then [] else [message]) = [] ↔ xs = [] := by
    intro xs message
    by_cases h : xs = []
    · simp [h]
    · simp [h]
  rw [validateColumnMappingShape, List.append_eq_nil_iff, List.append_eq_nil_iff, hempty, hempty,
    hempty, and_assoc]
  simp [List.filter_eq_nil_iff, isCanonicalCsvField]

/-- A usable header is the source of its field. -/
theorem exists_source {f : String} (h : isUsableHeader (mapping.members.lookup f)) :
    ∃ s, mapping.members.lookup f = some (.string s) ∧ mapping.source f = some s := by
  rcases hvalue : mapping.members.lookup f with _ | (s | _)
  · simp [hvalue, isUsableHeader] at h
  · have hs : s ≠ "" := by
      rintro rfl
      simp [hvalue, isUsableHeader, trim, List.rdropWhile] at h
    exact ⟨s, rfl, by simp [ColumnMapping.source, hvalue, hs]⟩
  · simp [hvalue, isUsableHeader] at h

theorem lookup_of_source {f s : String} (h : mapping.source f = some s) :
    mapping.members.lookup f = some (.string s) ∧ s ≠ "" := by
  rcases hvalue : mapping.members.lookup f with _ | (s' | _)
  · simp [ColumnMapping.source, hvalue] at h
  · simp only [ColumnMapping.source, hvalue] at h
    split_ifs at h with hs
    obtain rfl := Option.some.inj h
    exact ⟨rfl, hs⟩
  · simp [ColumnMapping.source, hvalue] at h

variable (haccepted : validateColumnMappingShape (.object mapping) = [])

omit haccepted in
theorem mem_of_lookup_eq {k : String} {v : MappingValue} (h : mapping.members.lookup k = some v) :
    (k, v) ∈ mapping.members := by
  obtain ⟨_, _, hsplit, -⟩ := List.lookup_eq_some_iff.mp h
  exact hsplit ▸ List.mem_append_right _ List.mem_cons_self

omit haccepted in
/-- A key stands for its one member. -/
theorem lookup_eq_of_mem {k : String} {v : MappingValue} (h : (k, v) ∈ mapping.members) :
    mapping.members.lookup k = some v := by
  obtain ⟨before, after, hsplit⟩ := List.append_of_mem h
  have hdistinct := mapping.distinct
  rw [hsplit, List.map_append, List.map_cons] at hdistinct
  rw [List.lookup_eq_some_iff]
  refine ⟨before, after, hsplit, fun m hm => ?_⟩
  simp only [bne_iff_ne, ne_eq]
  exact fun heq => List.disjoint_of_nodup_append hdistinct (List.mem_map_of_mem hm)
    (heq ▸ List.mem_cons_self)

include haccepted in
theorem canonical_of_source {f s : String} (h : mapping.source f = some s) :
    f ∈ CANONICAL_CSV_FIELDS :=
  (accepted_iff.mp haccepted).1 f
    (List.mem_map_of_mem (mem_of_lookup_eq (lookup_of_source h).1))

include haccepted in
/-- Every member names a column. -/
theorem source_of_mem {f : String} {v : MappingValue} (h : (f, v) ∈ mapping.members) :
    ∃ s, v = .string s ∧ mapping.source f = some s := by
  obtain ⟨hknown, hrequired, hoptional⟩ := accepted_iff.mp haccepted
  have hlookup := lookup_eq_of_mem h
  have husable : isUsableHeader (mapping.members.lookup f) := by
    rcases List.mem_append.mp (hknown f (List.mem_map_of_mem h)) with hf | hf
    · exact hrequired f hf
    · exact hoptional f hf (by rw [hlookup]; rfl)
  obtain ⟨s, hs, hsource⟩ := exists_source husable
  exact ⟨s, Option.some.inj (hlookup.symm.trans hs), hsource⟩

include haccepted in
/-- A mapped column is missing in the file exactly when one is reported. -/
theorem notFound_eq_none_iff {actualHeaders : List String} :
    mapping.notFound actualHeaders = none ↔
      ∀ f s, mapping.source f = some s → s ∈ actualHeaders := by
  simp only [ColumnMapping.notFound, List.findSome?_eq_none_iff]
  refine ⟨?_, ?_⟩
  · intro h f s hsource
    obtain ⟨hlookup, hs⟩ := lookup_of_source hsource
    simpa [hs] using h _ (mem_of_lookup_eq hlookup)
  · rintro h ⟨f, value⟩ hmem
    obtain ⟨s, rfl, hsource⟩ := source_of_mem haccepted hmem
    simp [h f s hsource]

omit haccepted in
theorem fatalErrors_eq_nil_iff :
    result.fatalErrors = [] ↔ ∀ e ∈ result.errors, e.type = .delimiter := by
  simp [ParseResult.fatalErrors, List.filter_eq_nil_iff]

include haccepted in
/-- **Parsing with an accepted mapping.** -/
theorem parse_mapped_iff :
    CsvProviderAdapter.parse result (some (.object mapping)) = .ok rows ↔
      (∀ e ∈ result.errors, e.type = .delimiter) ∧
      (∀ f s, mapping.source f = some s → s ∈ result.fields) ∧
      rows = result.data.map mapping.remap := by
  rw [← notFound_eq_none_iff haccepted, ← fatalErrors_eq_nil_iff]
  simp only [CsvProviderAdapter.parse]
  rcases result.fatalErrors with _ | ⟨e, fatal⟩
  · simp only [haccepted]
    rcases mapping.notFound result.fields with _ | message
    · simp [eq_comm]
    · simp
  · simp

/-- Parsing without a mapping. -/
theorem parse_plain_iff :
    CsvProviderAdapter.parse result none = .ok rows ↔
      (∀ e ∈ result.errors, e.type = .delimiter) ∧
      (∀ f ∈ REQUIRED_CSV_FIELDS, f ∈ result.fields) ∧ rows = result.data := by
  have hmissing : result.missing = [] ↔ ∀ f ∈ REQUIRED_CSV_FIELDS, f ∈ result.fields := by
    simp [ParseResult.missing, List.filter_eq_nil_iff]
  rw [← hmissing, ← fatalErrors_eq_nil_iff]
  simp only [CsvProviderAdapter.parse]
  rcases result.fatalErrors with _ | ⟨e, fatal⟩
  · rcases result.missing with _ | ⟨f, missing⟩
    · simp [eq_comm]
    · simp
  · simp

/-- A remapped row has the cell of the column a field is mapped to. -/
theorem lookup_remap (row : CsvRow) {f : String} (hf : f ∈ CANONICAL_CSV_FIELDS) :
    (mapping.remap row).fields.lookup f = (mapping.source f).bind (row.fields.lookup ·) := by
  have hcell : mapping.cell row f = (mapping.source f).bind (row.fields.lookup ·) := by
    have hcanonical : isCanonicalCsvField f = true := List.contains_iff_mem.mpr hf
    rw [ColumnMapping.cell, if_pos hcanonical]
  have hkeys : ∀ keys : List String, (keys.filterMap fun canonical =>
      (mapping.cell row canonical).map (canonical, ·)).lookup f =
        if f ∈ keys then mapping.cell row f else none := by
    intro keys
    induction keys with
    | nil => rfl
    | cons key keys ih =>
      rw [List.filterMap_cons]
      by_cases hkey : f = key
      · subst hkey
        rcases hrow : mapping.cell row f with _ | cell
        · simp [ih, hrow]
        · simp
      · rcases mapping.cell row key with _ | cell
        · simp [ih, hkey]
        · simp [List.lookup_cons, beq_false_of_ne hkey, ih, hkey]
  rw [← hcell]
  refine (hkeys _).trans ?_
  split_ifs with hmem
  · rfl
  · -- a field that is no key of the mapping has no source
    rw [hcell]
    rcases hsource : mapping.source f with _ | s
    · rfl
    · exact absurd (List.mem_map_of_mem (mem_of_lookup_eq (lookup_of_source hsource).1)) hmem

end

/-! ## Headers -/

theorem transformHeader_canonical {f : String} (hf : f ∈ CANONICAL_CSV_FIELDS) :
    transformHeader f = f := by
  revert f
  decide +kernel

/-- No field looks like a numbered header. -/
theorem ne_numbered {f : String} (hf : f ∈ CANONICAL_CSV_FIELDS) (header : String) (n : ℕ) :
    f ≠ CsvFile.numbered header n := by
  have hplain : '_' ∉ f.toList := by
    revert f
    decide +kernel
  rintro rfl
  exact hplain (by simp [CsvFile.numbered])

theorem toList_numbered (header : String) (n : ℕ) :
    (CsvFile.numbered header n).toList = header.toList ++ '_' :: Nat.toDigits 10 n := by
  simp [CsvFile.numbered, Nat.repr]

theorem numbered_injective (header : String) : Function.Injective (CsvFile.numbered header) := by
  intro m n h
  have htext := congrArg String.toList h
  rw [toList_numbered, toList_numbered] at htext
  exact toDigits_injective (List.cons.inj (List.append_cancel_left htext)).2

/-- What is trimmed does not start with white space. -/
theorem head_trim {h : String} {c : Char} {text : List Char} (htrim : trim h = c :: text) :
    isJsSpace c = false := by
  obtain ⟨rest, hrest⟩ := List.rdropWhile_prefix isJsSpace (l := h.toList.dropWhile isJsSpace)
  have hhead := List.head?_dropWhile_not isJsSpace h.toList
  rw [← hrest, show List.rdropWhile isJsSpace _ = c :: text from htrim] at hhead
  simpa using hhead

/-- A trimmed header that is numbered is trimmed. -/
theorem transformHeader_numbered (h : String) (n : ℕ) :
    transformHeader (CsvFile.numbered (transformHeader h) n) =
      CsvFile.numbered (transformHeader h) n := by
  have htext : (CsvFile.numbered (transformHeader h) n).toList =
      trim h ++ '_' :: Nat.toDigits 10 n := by
    rw [toList_numbered, transformHeader, String.toList_ofList]
  -- it starts like the trimmed header, or with the underscore
  have hstart : (trim h ++ '_' :: Nat.toDigits 10 n).dropWhile isJsSpace =
      trim h ++ '_' :: Nat.toDigits 10 n := by
    rcases htrim : trim h with _ | ⟨c, text⟩
    · rfl
    · rw [List.cons_append, List.dropWhile_cons_of_neg (by simp [head_trim htrim])]
  have hdigits : Nat.toDigits 10 n ≠ [] := Nat.toDigits_ne_nil
  rw [transformHeader, ← String.toList_inj, String.toList_ofList, trim, htext, hstart,
    List.rdropWhile_eq_self_iff]
  -- and ends with a digit
  intro hne
  have hlast : (trim h ++ '_' :: Nat.toDigits 10 n).getLast hne =
      (Nat.toDigits 10 n).getLast hdigits := by
    rw [List.getLast_append_of_right_ne_nil _ _ (List.cons_ne_nil _ _), List.getLast_cons hdigits]
  rw [hlast, isJsSpace_of_isDigit (Nat.isDigit_of_mem_toDigits (by decide) (by decide)
    (List.getLast_mem hdigits))]
  exact Bool.false_ne_true

/-! ## Parsed files -/

namespace CsvFile

/-- There is always something to return. -/
theorem exists_parsesTo (file : CsvFile) : ∃ result, file.ParsesTo result := by
  obtain ⟨fields, hfields, hnodup, -⟩ := exists_distinguished numbered_injective
    (file.header.map transformHeader) ∅
  have hkeys : ∀ row : List String, ((fields.zip row).map Prod.fst).Nodup := by
    exact fun row => hnodup.sublist (map_fst_zip_sublist fields row)
  refine ⟨⟨file.rows.map fun row => ⟨fields.zip row, hkeys row⟩,
    if file.WellFormed then [] else [⟨.fieldMismatch, none, ""⟩], fields⟩, hfields, hnodup, ?_, ?_⟩
  · by_cases hwell : file.WellFormed
    · simp [hwell]
    · simp [hwell]
  · intro _
    rw [List.map_map]
    rfl

variable {mapping : ColumnMapping} {file : CsvFile} {result : ParseResult}

/-- Nothing fatal is reported of a well-formed file. -/
theorem ParsesTo.errors_iff (h : file.ParsesTo result) :
    (∀ e ∈ result.errors, e.type = .delimiter) ↔ file.WellFormed := by
  rw [← not_iff_not, ← h.errors]
  push Not
  rfl

/-- Reading a header that is in the file, or could not be a numbered one. -/
theorem ParsesTo.lookup_zip (h : file.ParsesTo result) {x : String}
    (hx : x ∈ file.header.map transformHeader ∨ ∀ y n, x ≠ numbered y n) {row : List String}
    (hrow : row.length = file.header.length) :
    (result.fields.zip row).lookup x =
      (file.header.findIdx? fun h => transformHeader h = x).bind (row[·]?) := by
  rw [h.fields.lookup_zip h.fields_nodup hx (hrow.trans (List.length_map _).symm),
    lookup_zip_eq, List.findIdx?_map]
  rfl

/-- A mapped column that papaparse returns is a column of the file. -/
theorem ParsesTo.mem_header (h : file.ParsesTo result) {s : String} (hheader : s ∈ file.header)
    (hfield : s ∈ result.fields) : s ∈ file.header.map transformHeader := by
  rcases h.fields.mem hfield with hmem | ⟨y, hy, n, rfl⟩
  · exact hmem
  · -- it would be trimmed, and is written so in the file
    obtain ⟨header, -, rfl⟩ := List.mem_map.mp hy
    rw [← transformHeader_numbered]
    exact List.mem_map_of_mem hheader

theorem renamed_wellFormed (hwell : file.WellFormed) : (file.renamed mapping).WellFormed := by
  refine ⟨hwell.1, fun row' hrow' => ?_⟩
  obtain ⟨row, hrow, rfl⟩ := List.mem_map.mp hrow'
  have hlength := hwell.2 row hrow
  rw [List.length_append, length_relabelRow mapping.headings hlength, List.length_drop, hlength,
    Nat.sub_self, Nat.add_zero]
  rfl

/-- What the renamed file has under a field. -/
theorem ParsesTo.lookup_renamed (h : (file.renamed mapping).ParsesTo result) {f : String}
    (hf : f ∈ CANONICAL_CSV_FIELDS) {row : List String} (hrow : row.length = file.header.length) :
    (result.fields.zip
      (relabelRow mapping.headings file.header row ++ row.drop file.header.length)).lookup f =
      (file.header.findIdx? fun h => f ∈ (mapping.headings h).map transformHeader).bind
        (row[·]?) := by
  have hlabels : relabelRow mapping.headings file.header row =
      relabelRow (fun h => (mapping.headings h).map transformHeader) file.header row := by
    simp [relabelRow]
  have hnames : (file.renamed mapping).header.map transformHeader =
      file.header.flatMap fun h => (mapping.headings h).map transformHeader :=
    List.map_flatMap
  rw [← hrow, List.drop_length, List.append_nil,
    h.fields.lookup_zip h.fields_nodup (.inr (ne_numbered hf)), hnames, hlabels,
    lookup_relabelRow]
  rw [List.length_map]
  exact length_relabelRow mapping.headings hrow

end CsvFile

/-! ## Both ways of parsing -/

section

variable {mapping : ColumnMapping} {file : CsvFile} {result result' : ParseResult}

/-- A field is a heading of the column it is mapped to, also when trimmed. -/
theorem mem_headings {f s : String} (hf : f ∈ CANONICAL_CSV_FIELDS)
    (hsource : mapping.source f = some s) : f ∈ (mapping.headings s).map transformHeader := by
  have hmem : f ∈ mapping.fieldsOf s := by
    simp [ColumnMapping.fieldsOf, hf, hsource]
  have hheadings : f ∈ mapping.headings s := by
    rw [ColumnMapping.headings, if_neg (List.ne_nil_of_mem hmem)]
    exact hmem
  exact List.mem_map.mpr ⟨f, hheadings, transformHeader_canonical hf⟩

/-- **The cell of a remapped row.** -/
theorem lookup_remap_eq (hresult : file.ParsesTo result)
    (hsources : ∀ f s, mapping.source f = some s → s ∈ file.header)
    (hfields : ∀ f s, mapping.source f = some s → s ∈ result.fields) {f : String}
    (hf : f ∈ CANONICAL_CSV_FIELDS) {row : CsvRow} {cells : List String}
    (hrow : row.fields = result.fields.zip cells) (hcells : cells.length = file.header.length) :
    (mapping.remap row).fields.lookup f =
      ((mapping.source f).bind fun s =>
        file.header.findIdx? fun h => transformHeader h = s).bind (cells[·]?) := by
  rw [lookup_remap row hf, hrow]
  rcases hsource : mapping.source f with _ | s
  · rfl
  · exact hresult.lookup_zip
      (.inl (hresult.mem_header (hsources f s hsource) (hfields f s hsource))) hcells

/-- Rows that belong to the same rows of the file, one by one. -/
theorem forall₂_of_map_eq {data data' : List CsvRow} {rows : List (List String)}
    {g g' : List String → List (String × String)} {R : CsvRow → CsvRow → Prop}
    (h : data.map CsvRow.fields = rows.map g) (h' : data'.map CsvRow.fields = rows.map g')
    (hR : ∀ cells ∈ rows, ∀ row row', row.fields = g cells → row'.fields = g' cells → R row row') :
    List.Forall₂ R data data' := by
  induction rows generalizing data data' with
  | nil =>
    rw [List.map_eq_nil_iff.mp h, List.map_eq_nil_iff.mp h']
    exact .nil
  | cons cells rows ih =>
    obtain ⟨row, data, rfl, hrow, h⟩ := List.map_eq_cons_iff.mp h
    obtain ⟨row', data', rfl, hrow', h'⟩ := List.map_eq_cons_iff.mp h'
    refine .cons (hR cells List.mem_cons_self row row' hrow hrow') (ih h h' ?_)
    exact fun cells hcells => hR cells (List.mem_cons_of_mem _ hcells)

end

variable {mapping : ColumnMapping} {header : List String}

/-- The condition makes one file parse like the renamed one. -/
theorem ReadsRenamedColumns.parsesAsRenamed {file : CsvFile} {result result' : ParseResult}
    (h : ReadsRenamedColumns mapping file.header)
    (haccepted : validateColumnMappingShape (.object mapping) = [])
    (hsources : ∀ f s, mapping.source f = some s → s ∈ file.header)
    (hresult : file.ParsesTo result) (hresult' : (file.renamed mapping).ParsesTo result') :
    ParsesAsRenamed mapping file result result' := by
  -- every mapped column is found
  have hfields : ∀ f s, mapping.source f = some s → s ∈ result.fields := by
    intro f s hsource
    have hf := canonical_of_source haccepted hsource
    have hcolumn := h f hf
    have hheaded : (file.header.findIdx? fun h =>
        f ∈ (mapping.headings h).map transformHeader).isSome := by
      rw [List.findIdx?_isSome, List.any_eq_true]
      exact ⟨s, hsources f s hsource, decide_eq_true (mem_headings hf hsource)⟩
    rw [← hcolumn, hsource, Option.bind_some, List.findIdx?_isSome, List.any_eq_true] at hheaded
    obtain ⟨header, hheader, htrimmed⟩ := hheaded
    exact hresult.fields.subset (List.mem_map.mpr ⟨header, hheader, of_decide_eq_true htrimmed⟩)
  refine ⟨?_, ?_⟩
  · rw [← hresult.errors_iff]
    refine ⟨?_, ?_⟩
    · rintro ⟨rows, hrows⟩
      exact ((parse_mapped_iff haccepted).mp hrows).1
    · exact fun herrors => ⟨_, (parse_mapped_iff haccepted).mpr ⟨herrors, hfields, rfl⟩⟩
  · intro rows hrows
    obtain ⟨herrors, -, rfl⟩ := (parse_mapped_iff haccepted).mp hrows
    have hwell := hresult.errors_iff.mp herrors
    have hwell' : (file.renamed mapping).WellFormed := CsvFile.renamed_wellFormed hwell
    refine ⟨result'.data, parse_plain_iff.mpr ⟨hresult'.errors_iff.mpr hwell', ?_, rfl⟩, ?_⟩
    · intro f hf
      obtain ⟨s, -, hsource⟩ := exists_source ((accepted_iff.mp haccepted).2.1 f hf)
      have hmem := mem_headings (List.mem_append_left _ hf) hsource
      refine hresult'.fields.subset ?_
      obtain ⟨heading, hheading, htrimmed⟩ := List.mem_map.mp hmem
      exact List.mem_map.mpr
        ⟨heading, List.mem_flatMap.mpr ⟨s, hsources f s hsource, hheading⟩, htrimmed⟩
    · rw [List.forall₂_map_left_iff]
      have hdata' := hresult'.data hwell'
      rw [CsvFile.renamed, List.map_map] at hdata'
      refine forall₂_of_map_eq (hresult.data hwell) hdata' ?_
      intro cells hcells row row' hrow hrow' f hf
      have hlength := hwell.2 cells hcells
      rw [lookup_remap_eq hresult hsources hfields hf hrow hlength, hrow', Function.comp_apply,
        hresult'.lookup_renamed hf hlength, h f hf]

/-- **When a mapping is as good as renaming the headers**: for all files of a header at once. -/
theorem parses_as_renamed_iff (mapping : ColumnMapping) (header : List String)
    (haccepted : validateColumnMappingShape (.object mapping) = [])
    (hsources : ∀ f s, mapping.source f = some s → s ∈ header) :
    (∀ (file : CsvFile) (result result' : ParseResult), file.header = header →
        file.ParsesTo result → (file.renamed mapping).ParsesTo result' →
        ParsesAsRenamed mapping file result result') ↔
      ReadsRenamedColumns mapping header := by
  refine ⟨?_, ?_⟩
  · intro hall f hf
    refine column_eq_of_forall (β := String) (n := header.length) ?_ ?_ fun cells hcells => ?_
    · intro k hk
      obtain ⟨s, -, hk⟩ := Option.bind_eq_some_iff.mp hk
      exact (List.findIdx?_eq_some_iff_getElem.mp hk).1
    · exact fun k hk => (List.findIdx?_eq_some_iff_getElem.mp hk).1
    · -- a file with this one row
      have hwell : CsvFile.WellFormed ⟨header, [cells], []⟩ := by
        simp [CsvFile.WellFormed, hcells]
      obtain ⟨result, hresult⟩ := CsvFile.exists_parsesTo ⟨header, [cells], []⟩
      obtain ⟨result', hresult'⟩ :=
        CsvFile.exists_parsesTo (CsvFile.renamed mapping ⟨header, [cells], []⟩)
      obtain ⟨hparses, hagree⟩ := hall _ result result' rfl hresult hresult'
      obtain ⟨rows, hrows⟩ := hparses.mpr hwell
      obtain ⟨rows', hrows', hsame⟩ := hagree rows hrows
      obtain ⟨-, hfields, rfl⟩ := (parse_mapped_iff haccepted).mp hrows
      obtain ⟨-, -, rfl⟩ := parse_plain_iff.mp hrows'
      obtain ⟨row, hdata, hrow⟩ := List.map_eq_singleton_iff.mp (hresult.data hwell)
      obtain ⟨row', hdata', hrow'⟩ :=
        List.map_eq_singleton_iff.mp (hresult'.data (CsvFile.renamed_wellFormed hwell))
      rw [hdata, hdata', List.map_singleton, List.forall₂_cons] at hsame
      rw [← lookup_remap_eq hresult hsources hfields hf hrow hcells, hsame.1 f hf, hrow',
        hresult'.lookup_renamed hf hcells]
  · rintro h file result result' rfl hresult hresult'
    exact h.parsesAsRenamed haccepted hsources hresult hresult'

/-- Where trimmed headers differ, no mapped header has blanks around it, and every column that
is headed with a field is mapped, the condition holds. -/
theorem readsRenamedColumns_of_plain (hsources : ∀ f s, mapping.source f = some s → s ∈ header)
    (hdistinct : (header.map transformHeader).Nodup)
    (htrimmed : ∀ f s, mapping.source f = some s → transformHeader s = s)
    (hmapped : ∀ h ∈ header, transformHeader h ∈ CANONICAL_CSV_FIELDS → mapping.fieldsOf h ≠ []) :
    ReadsRenamedColumns mapping header := by
  intro f hf
  -- the columns headed with the field are those it is mapped to
  have hheaded : ∀ h ∈ header, f ∈ (mapping.headings h).map transformHeader ↔
      mapping.source f = some h := by
    intro h hh
    refine ⟨?_, ?_⟩
    · intro hmem
      obtain ⟨heading, hheading, htrim⟩ := List.mem_map.mp hmem
      rw [ColumnMapping.headings] at hheading
      split_ifs at hheading with hnone
      · obtain rfl := List.mem_singleton.mp hheading
        exact absurd hnone (hmapped heading hh (htrim ▸ hf))
      · obtain ⟨hcanonical, hsource⟩ := List.mem_filter.mp hheading
        obtain rfl := (transformHeader_canonical hcanonical).symm.trans htrim
        exact of_decide_eq_true hsource
    · exact mem_headings hf
  have hfirst : ∀ s, mapping.source f = some s →
      (header.findIdx? fun h => transformHeader h = s) =
        header.findIdx? fun h => f ∈ (mapping.headings h).map transformHeader := by
    intro s hsource
    refine findIdx?_congr fun h hh => ?_
    rw [hheaded h hh, hsource, Option.some.injEq]
    refine ⟨?_, ?_⟩
    · intro htrim
      have hsame := htrim.trans (htrimmed f s hsource).symm
      exact (List.inj_on_of_nodup_map hdistinct hh (hsources f s hsource) hsame).symm
    · rintro rfl
      exact htrimmed f s hsource
  rcases hsource : mapping.source f with _ | s
  · refine (List.findIdx?_eq_none_iff.mpr fun h hh => ?_).symm
    rw [decide_eq_false_iff_not, hheaded h hh, hsource]
    simp
  · exact hfirst s hsource

/-! ## Mappings that are saved -/

/-- Only accepted mappings are ever saved. -/
theorem SaveColumnMappingHandler.accepted {rows rows' : List ColumnMappingRow}
    {cmd : ColumnMappingRow} (h : SaveColumnMappingHandler.execute rows cmd = .ok rows')
    (hrows : ∀ row ∈ rows, validateColumnMappingShape row.mapping = []) :
    ∀ row ∈ rows', validateColumnMappingShape row.mapping = [] := by
  simp only [execute] at h
  split at h
  · next haccepted =>
    split_ifs at h
    · obtain rfl := Except.ok.inj h
      intro row hrow
      obtain ⟨old, hold, rfl⟩ := List.mem_map.mp hrow
      split_ifs
      · exact haccepted
      · exact hrows old hold
    · obtain rfl := Except.ok.inj h
      intro row hrow
      rcases List.mem_append.mp hrow with hrow | hrow
      · exact hrows row hrow
      · exact List.mem_singleton.mp hrow ▸ haccepted
  · cases h

namespace Sample

theorem requiredFields_distinct : REQUIRED_CSV_FIELDS.Nodup := by decide

/-- The required fields, with the department in a column of the given name. -/
def mappingWith (department : String) : ColumnMapping where
  members :=
    [("department", .string department), ("category", .string "Cost Category"),
      ("amountMinorUnits", .string "Amount"), ("currency", .string "Curr"),
      ("expenseDate", .string "Txn Date")]
  distinct := requiredFields_distinct

def headerWith (department : String) : List String :=
  [department, "Cost Category", "Amount", "Curr", "Txn Date"]

def expenseCells : List String := ["Engineering", "Cloud", "5000", "NGN", "2026-08-01"]

/-- The first column is headed with blanks around its name or without. -/
def mappedFile (department : String) : CsvFile := ⟨headerWith department, [expenseCells], []⟩

theorem mappedRow_distinct : (((headerWith "Dept").zip expenseCells).map Prod.fst).Nodup := by
  decide

theorem canonicalRow_distinct : ((REQUIRED_CSV_FIELDS.zip expenseCells).map Prod.fst).Nodup := by
  decide

/-- What papaparse returns for the file, and for the same file with other headers. -/
def mappedResult : ParseResult :=
  ⟨[⟨(headerWith "Dept").zip expenseCells, mappedRow_distinct⟩], [], headerWith "Dept"⟩

def canonicalResult : ParseResult :=
  ⟨[⟨REQUIRED_CSV_FIELDS.zip expenseCells, canonicalRow_distinct⟩], [], REQUIRED_CSV_FIELDS⟩

theorem sources_mem (department : String) (f s : String)
    (h : (mappingWith department).source f = some s) : s ∈ headerWith department := by
  obtain ⟨hlookup, -⟩ := lookup_of_source h
  have hmem := mem_of_lookup_eq hlookup
  simp only [mappingWith, List.mem_cons, Prod.mk.injEq, MappingValue.string.injEq,
    List.not_mem_nil, or_false] at hmem
  rcases hmem with ⟨-, rfl⟩ | ⟨-, rfl⟩ | ⟨-, rfl⟩ | ⟨-, rfl⟩ | ⟨-, rfl⟩
  all_goals simp [headerWith]

end Sample

theorem parses_as_renamed_iff_sample :
    ParsesAsRenamed (Sample.mappingWith "Dept") (Sample.mappedFile "Dept") Sample.mappedResult
      Sample.canonicalResult := by
  have hheader : (Sample.headerWith "Dept").map transformHeader = Sample.headerWith "Dept" := by
    decide +kernel
  have hrenamed : ((Sample.mappedFile "Dept").renamed (Sample.mappingWith "Dept")).header.map
      transformHeader = REQUIRED_CSV_FIELDS := by
    decide +kernel
  refine (parses_as_renamed_iff (Sample.mappingWith "Dept") (Sample.headerWith "Dept")
    (by decide +kernel) (Sample.sources_mem _)).mpr (by decide +kernel) _ _ _ rfl ?_ ?_
  · refine ⟨?_, by decide, by decide +kernel, fun _ => rfl⟩
    exact (congrArg (Distinguished _ · _) hheader).mpr (.of_nodup (by decide))
  · refine ⟨?_, by decide, by decide +kernel, fun _ => by decide +kernel⟩
    exact (congrArg (Distinguished _ · _) hrenamed).mpr (.of_nodup (by decide))

/-- **A column that is not found**: the mapping spells the header as the file does. -/
theorem blank_header_not_found : ¬ ∀ (mapping : ColumnMapping) (file : CsvFile)
    (result result' : ParseResult), validateColumnMappingShape (.object mapping) = [] →
    (∀ f s, mapping.source f = some s → s ∈ file.header) → file.ParsesTo result →
    (file.renamed mapping).ParsesTo result' → ParsesAsRenamed mapping file result result' := by
  intro hall
  obtain ⟨result, hresult⟩ := (Sample.mappedFile " Dept").exists_parsesTo
  obtain ⟨result', hresult'⟩ :=
    ((Sample.mappedFile " Dept").renamed (Sample.mappingWith " Dept")).exists_parsesTo
  have haccepted : validateColumnMappingShape (.object (Sample.mappingWith " Dept")) = [] := by
    decide +kernel
  obtain ⟨hparses, -⟩ := hall _ _ _ _ haccepted (Sample.sources_mem _) hresult hresult'
  obtain ⟨rows, hrows⟩ := hparses.mpr (by decide +kernel)
  obtain ⟨-, hfields, -⟩ := (parse_mapped_iff haccepted).mp hrows
  have hfound := hresult.mem_header (s := " Dept") (by decide +kernel)
    (hfields "department" " Dept" (by decide +kernel))
  exact absurd hfound (by decide +kernel)

end RatelPlatform
