import RatelPlatform.BigIntTexts
import RatelPlatform.ImportRuns

/-!
# Amounts in an imported file

`CsvNormalizer` hands the trimmed column `amountMinorUnits` to `BigInt` and refuses what is not
positive. What is no number at all leaves `BigInt` as a `SyntaxError`, which is not one of the
normalizer's own errors and does not name the row; and `BigInt` reads other bases too.

So the column is read as it is meant exactly when it is a decimal literal, empty, or a zero of
another base (`reads_amount_iff`).
-/

namespace RatelPlatform

namespace CsvNormalizer

/-- All columns but the amount are as they have to be. -/
structure OtherFieldsValid (runtime : Runtime) (row : CsvRow) : Prop where
  department : row.trimmed "department" ≠ []
  category : row.trimmed "category" ≠ []
  currency : (JsString.ofText (row.trimmed "currency")).length = 3
  expenseDate : ∃ text date, row.fields.lookup "expenseDate" = some text ∧
    runtime.parseDate (trim text) = some date

/-- The message says in front which row it is about. -/
def NamesRow (rowNumber : ℕ) (message : String) : Prop :=
  ∃ rest, message = s!"Row {rowNumber}:" ++ rest

theorem namesRow_of_tail {rowNumber : ℕ} {tail : String} (rest : String) (h : tail = ":" ++ rest) :
    NamesRow rowNumber ("Row " ++ toString rowNumber ++ tail) :=
  ⟨rest, (congrArg ("Row " ++ toString rowNumber ++ ·) h).trans (String.append_assoc ..).symm⟩

/-- The row is accepted exactly with a decimal literal of a positive number as its amount, and
with that number; otherwise it is reported as the normalizer reports a row. -/
structure ReadsAmount (runtime : Runtime) (row : CsvRow) (rowNumber : ℕ) : Prop where
  accepts : ∀ n > 0, DecimalLiteral (row.trimmed "amountMinorUnits") n →
    ∃ record, normalize runtime row rowNumber = .ok record ∧ record.amountMinorUnits = n
  accepted : ∀ record, normalize runtime row rowNumber = .ok record →
    0 < record.amountMinorUnits ∧
      DecimalLiteral (row.trimmed "amountMinorUnits") record.amountMinorUnits
  refuses : (¬ ∃ n > 0, DecimalLiteral (row.trimmed "amountMinorUnits") n) →
    ∃ message, normalize runtime row rowNumber = .error (.csvRowValidation message) ∧
      NamesRow rowNumber message

/-- A decimal literal, nothing at all, or a zero of another base. -/
inductive PlainAmount : List Char → Prop
  | empty : PlainAmount []
  | decimal {text : List Char} {n : ℤ} (h : DecimalLiteral text n) : PlainAmount text
  | zero {mark : Char} {zeros : List Char} (hmark : (markedBase mark).isSome) (hne : zeros ≠ [])
      (hzeros : ∀ c ∈ zeros, c = '0') : PlainAmount ('0' :: mark :: zeros)

theorem markedBase_pos {mark : Char} {base : ℕ} (h : markedBase mark = some base) : 0 < base := by
  unfold markedBase at h
  split at h
  case h_7 => cases h
  all_goals
    obtain rfl := Option.some.inj h
    decide

/-- `BigInt` reads a plain amount, and reads it as a positive number only if it is a literal of
that number. -/
theorem plainAmount_iff {text : List Char} :
    PlainAmount text ↔ ∃ n, stringToBigInt text = some n ∧ (0 < n → DecimalLiteral text n) := by
  refine ⟨?_, ?_⟩
  · rintro (_ | h | ⟨hmark, hne, hzeros⟩)
    · exact ⟨0, rfl, fun h => absurd h (lt_irrefl 0)⟩
    · exact ⟨_, h.stringToBigInt, fun _ => h⟩
    · obtain ⟨base, hbase⟩ := Option.isSome_iff_exists.mp hmark
      have hzero := (digitsValue_eq_zero_iff (markedBase_pos hbase)).mpr ⟨hne, hzeros⟩
      exact ⟨0, (MarkedLiteral.mk hbase hzero).stringToBigInt, fun h => absurd h (lt_irrefl 0)⟩
  · rintro ⟨n, hread, hdecimal⟩
    rcases stringToBigInt_eq_some_iff.mp hread with ⟨rfl, -⟩ | h | ⟨m, h, rfl⟩
    · exact .empty
    · exact .decimal h
    · rcases Nat.eq_zero_or_pos m with rfl | hpos
      · obtain ⟨hmark, hdigits⟩ := h
        obtain ⟨hne, hzeros⟩ := (digitsValue_eq_zero_iff (markedBase_pos hmark)).mp hdigits
        exact .zero (Option.isSome_of_eq_some hmark) hne hzeros
      · exact .decimal (hdecimal (Int.natCast_pos.mpr hpos))

variable {runtime : Runtime} {row : CsvRow} {rowNumber : ℕ}

/-- With the other columns as they have to be, the amount decides. -/
theorem OtherFieldsValid.normalize_cases (h : OtherFieldsValid runtime row) (rowNumber : ℕ) :
    (∃ n record, amountOf row rowNumber = .ok n ∧ normalize runtime row rowNumber = .ok record ∧
        record.amountMinorUnits = n) ∨
      ∃ e, amountOf row rowNumber = .error e ∧ normalize runtime row rowNumber = .error e := by
  obtain ⟨text, date, htext, hdate⟩ := h.expenseDate
  have hdateOf : dateOf runtime row rowNumber = .ok date := dateOf_ok.mpr ⟨text, htext, hdate⟩
  have hunless : ∀ {p : Prop} [Decidable p] (e : ImportError), p →
      ImportError.unless p e = .ok () := fun e hp => if_pos hp
  rw [normalize, hunless _ h.department, hunless _ h.category, hunless _ h.currency, hdateOf]
  rcases amountOf row rowNumber with e | n
  · exact .inr ⟨e, rfl, rfl⟩
  · exact .inl ⟨n, _, rfl, rfl, rfl⟩

/-- What is no number is reported as an error of another kind. -/
theorem OtherFieldsValid.not_readsAmount (h : OtherFieldsValid runtime row)
    (hread : stringToBigInt (row.trimmed "amountMinorUnits") = none) :
    ¬ ReadsAmount runtime row rowNumber := by
  intro hreads
  obtain ⟨message, hmessage, -⟩ := hreads.refuses fun ⟨n, _, hn⟩ => by
    rw [hn.stringToBigInt] at hread
    cases hread
  rcases h.normalize_cases rowNumber with ⟨n, _, hn, -⟩ | ⟨e, he, hnormalize⟩
  · rw [(amountOf_ok.mp hn).1] at hread
    cases hread
  · rw [hnormalize] at hmessage
    obtain rfl := Except.error.inj hmessage
    simp only [amountOf, hread] at he
    cases he

/-- A number that is not positive is refused, whatever stands for it. -/
theorem OtherFieldsValid.readsAmount_of_nonpos (h : OtherFieldsValid runtime row) {n : ℤ}
    (hread : stringToBigInt (row.trimmed "amountMinorUnits") = some n) (hn : ¬ 0 < n) :
    ReadsAmount runtime row rowNumber := by
  have hamount : amountOf row rowNumber = .error (.csvRowValidation
      s!"Row {rowNumber}: amountMinorUnits must be a positive integer") := by
    simp only [amountOf, hread, if_neg hn]
  have hrefused : normalize runtime row rowNumber = .error (.csvRowValidation
      s!"Row {rowNumber}: amountMinorUnits must be a positive integer") := by
    rcases h.normalize_cases rowNumber with ⟨m, _, hm, -⟩ | ⟨e, he, hnormalize⟩
    · cases hamount.symm.trans hm
    · obtain rfl := Except.error.inj (he.symm.trans hamount)
      exact hnormalize
  constructor
  · intro m hm hliteral
    rw [hliteral.stringToBigInt] at hread
    obtain rfl := Option.some.inj hread
    exact absurd hm hn
  · intro record hrecord
    cases hrefused.symm.trans hrecord
  · exact fun _ => ⟨_, hrefused,
      namesRow_of_tail " amountMinorUnits must be a positive integer" (by decide)⟩

/-- A positive number is accepted. -/
theorem OtherFieldsValid.readsAmount_iff_of_pos (h : OtherFieldsValid runtime row) {n : ℤ}
    (hread : stringToBigInt (row.trimmed "amountMinorUnits") = some n) (hn : 0 < n) :
    ReadsAmount runtime row rowNumber ↔ DecimalLiteral (row.trimmed "amountMinorUnits") n := by
  obtain ⟨record, hrecord, hamount⟩ : ∃ record, normalize runtime row rowNumber = .ok record ∧
      record.amountMinorUnits = n := by
    have hok : amountOf row rowNumber = .ok n := amountOf_ok.mpr ⟨hread, hn⟩
    rcases h.normalize_cases rowNumber with ⟨m, record, hm, hrecord, hamount⟩ | ⟨e, he, -⟩
    · obtain rfl := Except.ok.inj (hok.symm.trans hm)
      exact ⟨record, hrecord, hamount⟩
    · cases hok.symm.trans he
  refine ⟨?_, ?_⟩
  · intro hreads
    rw [← hamount]
    exact (hreads.accepted record hrecord).2
  · intro hliteral
    constructor
    · intro m _ hm
      rw [hm.stringToBigInt] at hread
      obtain rfl := Option.some.inj hread
      exact ⟨record, hrecord, hamount⟩
    · intro record' hrecord'
      obtain rfl := Except.ok.inj (hrecord.symm.trans hrecord')
      rw [hamount]
      exact ⟨hn, hliteral⟩
    · exact fun hnone => absurd ⟨n, hn, hliteral⟩ hnone

/-- **When the amount is read as it is meant**: it is a decimal literal, empty, or a zero of
another base. -/
theorem reads_amount_iff (h : OtherFieldsValid runtime row) :
    ReadsAmount runtime row rowNumber ↔ PlainAmount (row.trimmed "amountMinorUnits") := by
  rw [plainAmount_iff]
  rcases hread : stringToBigInt (row.trimmed "amountMinorUnits") with _ | n
  · refine iff_of_false (h.not_readsAmount hread) ?_
    rintro ⟨n, hn, -⟩
    cases hn
  · by_cases hn : 0 < n
    · rw [h.readsAmount_iff_of_pos hread hn]
      simp [hn]
    · refine iff_of_true (h.readsAmount_of_nonpos hread hn) ⟨n, rfl, fun hpos => absurd hpos hn⟩

/-! ## Rows that are misread -/

end CsvNormalizer

namespace Sample

/-- A row with an amount. -/
def rowWithAmount (amount : String) : CsvRow where
  fields := [("department", "Ops"), ("category", "Travel"), ("amountMinorUnits", amount),
    ("currency", "NGN"), ("expenseDate", "1970-01-15")]
  distinct := by simp

end Sample

namespace CsvNormalizer

theorem otherFieldsValid_rowWithAmount (amount : String) :
    OtherFieldsValid Sample.importRuntime.toRuntime (Sample.rowWithAmount amount) where
  department := by
    have htext : (Sample.rowWithAmount amount).trimmed "department" = trim "Ops" := rfl
    rw [htext]
    decide +kernel
  category := by
    have htext : (Sample.rowWithAmount amount).trimmed "category" = trim "Travel" := rfl
    rw [htext]
    decide +kernel
  currency := by
    have htext : (Sample.rowWithAmount amount).trimmed "currency" = trim "NGN" := rfl
    rw [htext]
    decide +kernel
  expenseDate := ⟨_, _, rfl, rfl⟩

theorem reads_amount_iff_plus :
    ReadsAmount Sample.importRuntime.toRuntime (Sample.rowWithAmount " +5000 ") 2 := by
  refine (reads_amount_iff (otherFieldsValid_rowWithAmount _)).mpr ?_
  have htext : (Sample.rowWithAmount " +5000 ").trimmed "amountMinorUnits" =
      '+' :: ['5', '0', '0', '0'] := by decide +kernel
  rw [htext]
  exact .decimal (.plus (List.cons_ne_nil _ _) (by simp))

/-- **Text that is no number**: the error does not name the row. -/
theorem text_not_reported : ¬ ∀ (row : CsvRow) (rowNumber : ℕ),
    OtherFieldsValid Sample.importRuntime.toRuntime row →
    ReadsAmount Sample.importRuntime.toRuntime row rowNumber := by
  intro hall
  refine OtherFieldsValid.not_readsAmount (otherFieldsValid_rowWithAmount "not-a-number") ?_
    (hall (Sample.rowWithAmount "not-a-number") 2 (otherFieldsValid_rowWithAmount _))
  decide +kernel

end CsvNormalizer

end RatelPlatform
