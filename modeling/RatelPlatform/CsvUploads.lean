import RatelPlatform.Buffers
import RatelPlatform.SharedKernel

/-!
# What is uploaded as a CSV file

`validateCsvUpload` looks at the type a client declares, and at the beginning of the content.
The content decides: what is accepted is no empty file, begins with no known binary signature,
and has no NUL byte in its first part (`validateCsvUpload_eq_nil_iff`).
-/

namespace RatelPlatform

/-- `ALLOWED_CSV_CONTENT_TYPES` -/
def ALLOWED_CSV_CONTENT_TYPES : List String :=
  ["text/csv", "application/csv", "text/plain", "application/vnd.ms-excel",
    "application/octet-stream"]

/-- `SNIFF_WINDOW_BYTES` -/
def SNIFF_WINDOW_BYTES : ℕ := 8192

/-- Leading bytes of a format, and its name. -/
structure BinarySignature where
  bytes : Bytes
  label : String

/-- `BINARY_SIGNATURES` -/
def BINARY_SIGNATURES : List BinarySignature :=
  [⟨[0x25, 0x50, 0x44, 0x46], "a PDF"⟩,
    ⟨[0x50, 0x4b, 0x03, 0x04], "a ZIP archive or .xlsx/.docx workbook"⟩,
    ⟨[0xd0, 0xcf, 0x11, 0xe0], "a legacy Excel/Word document (.xls/.doc)"⟩,
    ⟨[0x89, 0x50, 0x4e, 0x47], "a PNG image"⟩,
    ⟨[0xff, 0xd8, 0xff], "a JPEG image"⟩,
    ⟨[0x47, 0x49, 0x46, 0x38], "a GIF image"⟩,
    ⟨[0x1f, 0x8b], "a gzip archive"⟩,
    ⟨[0x42, 0x5a, 0x68], "a bzip2 archive"⟩,
    ⟨[0x52, 0x61, 0x72, 0x21], "a RAR archive"⟩,
    ⟨[0x7f, 0x45, 0x4c, 0x46], "an executable binary"⟩]

/-- `startsWith` -/
def startsWith (buffer bytes : Bytes) : Bool :=
  decide (bytes.length ≤ buffer.length) && bytes.zipIdx.all fun (b, i) => buffer[i]? == some b

/-- The UTF-8 byte-order mark. -/
def byteOrderMark : Bytes := [0xef, 0xbb, 0xbf]

/-- What stands behind a byte-order mark, or all there is. -/
def withoutMark (buffer : Bytes) : Bytes :=
  if startsWith buffer byteOrderMark then buffer.drop 3 else buffer

/-- `sniffCsvContent` -/
def sniffCsvContent (buffer : Bytes) : List String :=
  if buffer.length = 0 then ["the file is empty"]
  else
    let body := withoutMark buffer
    if body.length = 0 then ["the file contains nothing but a byte-order mark"]
    else
      match BINARY_SIGNATURES.find? fun s => startsWith body s.bytes with
      | some signature => [s!"the content looks like {signature.label}, not a CSV file"]
      | none =>
        if 0x00 ∈ body.take SNIFF_WINDOW_BYTES then
          ["the content contains binary data (NUL bytes), so it is not a text CSV file"]
        else []

/-- `toLowerCase`; a content type has no letters but those of ASCII. -/
def toLowerCase (text : List Char) : List Char := text.map Char.toLower

/-- The declared type without its parameters. -/
def declaredType (contentType : Option String) : String :=
  .ofList (toLowerCase (trim (.ofList ((contentType.getD "").toList.takeWhile (· ≠ ';')))))

/-- `validateCsvUpload` -/
def validateCsvUpload (contentType : Option String) (buffer : Bytes) : List String :=
  let declared := declaredType contentType
  let shown := if declared = "" then "unknown" else declared
  (if declared ∈ ALLOWED_CSV_CONTENT_TYPES then []
    else [s!"content type \"{shown}\" is not accepted for CSV import " ++
      "(expected one of: " ++ ", ".intercalate ALLOWED_CSV_CONTENT_TYPES ++ ")"]) ++
    sniffCsvContent buffer

/-! ## What is accepted -/

theorem startsWith_iff {buffer bytes : Bytes} :
    startsWith buffer bytes = true ↔ bytes <+: buffer := by
  rw [startsWith, Bool.and_eq_true, decide_eq_true_eq, List.all_eq_true, List.prefix_iff_getElem?]
  refine ⟨?_, ?_⟩
  · rintro ⟨-, hsame⟩ i hi
    have hmem : (bytes[i], i) ∈ bytes.zipIdx := by
      rw [List.mem_zipIdx_iff_getElem?]
      simp [hi]
    exact eq_of_beq (hsame _ hmem)
  · intro hstarts
    refine ⟨(List.prefix_iff_getElem?.mpr hstarts).length_le, ?_⟩
    rintro ⟨b, i⟩ hmem
    obtain ⟨hi, hb⟩ := List.getElem?_eq_some_iff.mp (List.mem_zipIdx_iff_getElem?.mp hmem)
    exact beq_iff_eq.mpr ((hstarts i hi).trans (congrArg some hb))

/-- Content that may be text: there is some, of no known binary format, and without a NUL byte
in its first part. -/
structure LooksLikeText (buffer : Bytes) : Prop where
  not_empty : withoutMark buffer ≠ []
  no_signature : ∀ s ∈ BINARY_SIGNATURES, ¬ s.bytes <+: withoutMark buffer
  no_nul : 0 ∉ (withoutMark buffer).take SNIFF_WINDOW_BYTES

/-- **The content that is accepted.** -/
theorem sniffCsvContent_eq_nil_iff {buffer : Bytes} :
    sniffCsvContent buffer = [] ↔ LooksLikeText buffer := by
  have hfind : (BINARY_SIGNATURES.find? fun s => startsWith (withoutMark buffer) s.bytes) = none ↔
      ∀ s ∈ BINARY_SIGNATURES, ¬ s.bytes <+: withoutMark buffer := by
    simp only [List.find?_eq_none, startsWith_iff]
  simp only [sniffCsvContent, List.length_eq_zero_iff]
  refine ⟨fun h => ?_, fun ⟨hne, hsignature, hnul⟩ => ?_⟩
  · split_ifs at h with hempty hmark hnul
    · split at h
      · cases h
      · cases h
    · split at h
      · cases h
      · next hnone => exact ⟨hmark, hfind.mp hnone, hnul⟩
  · have hbuffer : buffer ≠ [] := by
      rintro rfl
      exact hne rfl
    rw [if_neg hbuffer, if_neg hne, hfind.mpr hsignature]
    exact if_neg hnul

/-- **The uploads that are accepted.** -/
theorem validateCsvUpload_eq_nil_iff {contentType : Option String} {buffer : Bytes} :
    validateCsvUpload contentType buffer = [] ↔
      declaredType contentType ∈ ALLOWED_CSV_CONTENT_TYPES ∧ LooksLikeText buffer := by
  rw [validateCsvUpload, List.append_eq_nil_iff, sniffCsvContent_eq_nil_iff]
  refine and_congr_left' ⟨fun h => ?_, fun h => if_pos h⟩
  by_contra hnot
  rw [if_neg hnot] at h
  cases h

end RatelPlatform
