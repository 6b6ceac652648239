import RatelPlatform.CsvNormalizer

/-!
# Texts that `BigInt` reads

`BigInt(text)` of a trimmed text reads a decimal integer with or without a sign, digits of
another base behind `0x`, `0o` or `0b`, and the empty text, which is zero. Everything else is a
`SyntaxError` (`stringToBigInt_eq_some_iff`).
-/

namespace RatelPlatform

/-! ## Digits -/

/-- Every character has to be a digit of the base. -/
theorem forall_digitValue_of_foldlM {base n m : ℕ} {digits : List Char}
    (h : digits.foldlM (fun n c =>
      ((digitValue c).filter fun d => d < base).map fun d => n * base + d) n = some m) :
    ∀ c ∈ digits, ∃ d < base, digitValue c = some d := by
  induction digits generalizing n with
  | nil => simp
  | cons c digits ih =>
    rw [List.foldlM_cons] at h
    obtain ⟨n', hn', h⟩ := Option.bind_eq_some_iff.mp h
    obtain ⟨d, hd, -⟩ := Option.map_eq_some_iff.mp hn'
    obtain ⟨hd, hlt⟩ := Option.filter_eq_some_iff.mp hd
    rw [List.forall_mem_cons]
    exact ⟨⟨d, of_decide_eq_true hlt, hd⟩, ih h⟩

theorem forall_digitValue {base n : ℕ} {digits : List Char} (h : digitsValue base digits = some n) :
    digits ≠ [] ∧ ∀ c ∈ digits, ∃ d < base, digitValue c = some d := by
  unfold digitsValue at h
  split_ifs at h with hne
  exact ⟨hne, forall_digitValue_of_foldlM h⟩

theorem isDigit_iff {c : Char} : c.isDigit = true ↔ '0' ≤ c ∧ c ≤ '9' := by
  simp [Char.isDigit, Char.le_def]

/-- What stands for less than ten is a decimal digit. -/
theorem isDigit_of_digitValue {c : Char} {d : ℕ} (h : digitValue c = some d) (hd : d < 10) :
    c.isDigit = true := by
  unfold digitValue at h
  split_ifs at h with hdigit hlower hupper
  · exact isDigit_iff.mpr hdigit
  · obtain rfl := Option.some.inj h
    omega
  · obtain rfl := Option.some.inj h
    omega

theorem digitsValue_ten {digits : List Char} (hne : digits ≠ [])
    (hdigits : ∀ c ∈ digits, c.isDigit) :
    digitsValue 10 digits = some (Nat.ofDigitChars 10 digits 0) := by
  rw [digitsValue, if_neg hne]
  generalize 0 = n
  induction digits generalizing n with
  | nil => exact absurd rfl hne
  | cons c digits ih =>
    have hc := List.forall_mem_cons.mp hdigits
    have hvalue : digitValue c = some (c.toNat - '0'.toNat) ∧ c.toNat - '0'.toNat < 10 := by
      have h : '0' ≤ c ∧ c ≤ '9' := isDigit_iff.mp hc.1
      refine ⟨if_pos h, ?_⟩
      have h9 : c.toNat ≤ '9'.toNat := h.2
      have : '9'.toNat = 57 ∧ '0'.toNat = 48 := by decide
      omega
    rw [List.foldlM_cons, hvalue.1, Option.filter_some, if_pos (decide_eq_true hvalue.2),
      Option.map_some, Nat.ofDigitChars_cons, mul_comm 10 n]
    rcases digits with _ | ⟨c', digits⟩
    · rfl
    · exact ih (List.cons_ne_nil _ _) hc.2 _

/-- **Decimal digits** are read as the number they denote, and nothing else is. -/
theorem digitsValue_ten_iff {digits : List Char} {n : ℕ} : digitsValue 10 digits = some n ↔
    digits ≠ [] ∧ (∀ c ∈ digits, c.isDigit) ∧ n = Nat.ofDigitChars 10 digits 0 := by
  refine ⟨?_, ?_⟩
  · intro h
    obtain ⟨hne, hvalues⟩ := forall_digitValue h
    have hdigits : ∀ c ∈ digits, c.isDigit := by
      intro c hc
      obtain ⟨d, hd, hvalue⟩ := hvalues c hc
      exact isDigit_of_digitValue hvalue hd
    exact ⟨hne, hdigits, Option.some.inj (h.symm.trans (digitsValue_ten hne hdigits))⟩
  · rintro ⟨hne, hdigits, rfl⟩
    exact digitsValue_ten hne hdigits

theorem digitValue_eq_zero_iff {c : Char} : digitValue c = some 0 ↔ c = '0' := by
  refine ⟨?_, ?_⟩
  · intro h
    unfold digitValue at h
    split_ifs at h with hdigit hlower hupper
    · have hle : '0'.toNat ≤ c.toNat := hdigit.1
      have hzero := Option.some.inj h
      exact Char.toNat_inj.mp (by omega)
    · have hzero := Option.some.inj h
      omega
    · have hzero := Option.some.inj h
      omega
  · rintro rfl
    rfl

/-- **Only zeros** denote zero, in any base. -/
theorem digitsValue_eq_zero_iff {base : ℕ} (hbase : 0 < base) {digits : List Char} :
    digitsValue base digits = some 0 ↔ digits ≠ [] ∧ ∀ c ∈ digits, c = '0' := by
  -- reading starts at zero and never comes back to it
  have hfold : ∀ n, digits.foldlM (fun n c =>
      ((digitValue c).filter fun d => d < base).map fun d => n * base + d) n = some 0 ↔
        n = 0 ∧ ∀ c ∈ digits, c = '0' := by
    induction digits with
    | nil => simp
    | cons c digits ih =>
      intro n
      rw [List.foldlM_cons, Option.bind_eq_bind, Option.bind_eq_some_iff, List.forall_mem_cons]
      refine ⟨?_, ?_⟩
      · rintro ⟨n', hn', h⟩
        obtain ⟨d, hd, rfl⟩ := Option.map_eq_some_iff.mp hn'
        obtain ⟨hsum, hdigits⟩ := (ih _).mp h
        obtain ⟨hn, rfl⟩ := Nat.add_eq_zero_iff.mp hsum
        have hc := digitValue_eq_zero_iff.mp (Option.filter_eq_some_iff.mp hd).1
        exact ⟨(Nat.mul_eq_zero.mp hn).resolve_right hbase.ne', hc, hdigits⟩
      · rintro ⟨rfl, rfl, hdigits⟩
        refine ⟨0, ?_, (ih 0).mpr ⟨rfl, hdigits⟩⟩
        rw [digitValue_eq_zero_iff.mpr rfl, Option.filter_some, if_pos (decide_eq_true hbase)]
        simp
  unfold digitsValue
  split_ifs with hne
  · simp [hne]
  · rw [hfold 0]
    simp [hne]

/-! ## Literals -/

/-- Decimal digits, with or without a sign. -/
inductive DecimalLiteral : List Char → ℤ → Prop
  | unsigned {digits : List Char} (hne : digits ≠ []) (hdigits : ∀ c ∈ digits, c.isDigit) :
      DecimalLiteral digits (Nat.ofDigitChars 10 digits 0 : ℕ)
  | plus {digits : List Char} (hne : digits ≠ []) (hdigits : ∀ c ∈ digits, c.isDigit) :
      DecimalLiteral ('+' :: digits) (Nat.ofDigitChars 10 digits 0 : ℕ)
  | minus {digits : List Char} (hne : digits ≠ []) (hdigits : ∀ c ∈ digits, c.isDigit) :
      DecimalLiteral ('-' :: digits) (-(Nat.ofDigitChars 10 digits 0 : ℕ))

/-- The base that a mark behind a zero stands for. -/
def markedBase : Char → Option ℕ
  | 'x' | 'X' => some 16
  | 'o' | 'O' => some 8
  | 'b' | 'B' => some 2
  | _ => none

/-- Digits of another base, behind a zero and its mark. -/
inductive MarkedLiteral : List Char → ℕ → Prop
  | mk {mark : Char} {base n : ℕ} {digits : List Char} (hmark : markedBase mark = some base)
      (hdigits : digitsValue base digits = some n) : MarkedLiteral ('0' :: mark :: digits) n

/-- Decimal digits are read as the number they denote, zeros in front included. -/
theorem stringToBigInt_digits {digits : List Char} (hne : digits ≠ [])
    (hdigits : ∀ c ∈ digits, c.isDigit) :
    stringToBigInt digits = some (Nat.ofDigitChars 10 digits 0 : ℕ) := by
  have hvalue := digitsValue_ten hne hdigits
  unfold stringToBigInt
  split
  · exact absurd rfl hne
  · exact absurd (hdigits '+' List.mem_cons_self) (by decide)
  · exact absurd (hdigits '-' List.mem_cons_self) (by decide)
  · rfl
  · next mark rest =>
    -- no digit is a mark of another base
    have hmark : ∀ c : Char, c.isDigit = false → mark ≠ c := by
      rintro c hc rfl
      cases (hdigits mark (by simp)).symm.trans hc
    have hmarks : ∀ c c' : Char, c.isDigit = false → c'.isDigit = false →
        ¬ (mark = c ∨ mark = c') := fun c c' hc hc' => not_or.mpr ⟨hmark c hc, hmark c' hc'⟩
    rw [if_neg (hmarks 'x' 'X' rfl rfl), if_neg (hmarks 'o' 'O' rfl rfl),
      if_neg (hmarks 'b' 'B' rfl rfl),
      digitsValue_ten (List.cons_ne_nil _ _) fun c hc => hdigits c (List.mem_cons_of_mem _ hc)]
    simp [Nat.ofDigitChars_cons]
  · rw [hvalue]
    rfl

theorem DecimalLiteral.stringToBigInt {text : List Char} {n : ℤ} (h : DecimalLiteral text n) :
    stringToBigInt text = some n := by
  cases h with
  | unsigned hne hdigits => exact stringToBigInt_digits hne hdigits
  | plus hne hdigits =>
    rw [RatelPlatform.stringToBigInt, digitsValue_ten hne hdigits]
    rfl
  | minus hne hdigits =>
    rw [RatelPlatform.stringToBigInt, digitsValue_ten hne hdigits]
    rfl

theorem MarkedLiteral.stringToBigInt {text : List Char} {n : ℕ} (h : MarkedLiteral text n) :
    stringToBigInt text = some (n : ℤ) := by
  obtain ⟨hmark, hdigits⟩ := h
  unfold markedBase at hmark
  split at hmark
  case h_7 => cases hmark
  all_goals
    obtain rfl := Option.some.inj hmark
    simp [RatelPlatform.stringToBigInt, hdigits]

/-- **What `BigInt` reads.** -/
theorem stringToBigInt_eq_some_iff {text : List Char} {n : ℤ} : stringToBigInt text = some n ↔
    text = [] ∧ n = 0 ∨ DecimalLiteral text n ∨ ∃ m : ℕ, MarkedLiteral text m ∧ n = m := by
  refine ⟨?_, ?_⟩
  · intro h
    have marked : ∀ {mark base digits}, markedBase mark = some base →
        (digitsValue base digits).map Int.ofNat = some n →
        ∃ m : ℕ, MarkedLiteral ('0' :: mark :: digits) m ∧ n = m := by
      intro mark base digits hmark hdigits
      obtain ⟨m, hm, rfl⟩ := Option.map_eq_some_iff.mp hdigits
      exact ⟨m, ⟨hmark, hm⟩, rfl⟩
    unfold stringToBigInt at h
    split at h
    · exact .inl ⟨rfl, (Option.some.inj h).symm⟩
    · obtain ⟨m, hm, rfl⟩ := Option.map_eq_some_iff.mp h
      obtain ⟨hne, hdigits, rfl⟩ := digitsValue_ten_iff.mp hm
      exact .inr (.inl (.plus hne hdigits))
    · obtain ⟨m, hm, rfl⟩ := Option.map_eq_some_iff.mp h
      obtain ⟨hne, hdigits, rfl⟩ := digitsValue_ten_iff.mp hm
      exact .inr (.inl (.minus hne hdigits))
    · obtain rfl := Option.some.inj h
      exact .inr (.inl (.unsigned (by simp) (by simp)))
    · next mark digits =>
      split_ifs at h with hx ho hb
      · exact .inr (.inr (marked (by rcases hx with rfl | rfl <;> rfl) h))
      · exact .inr (.inr (marked (by rcases ho with rfl | rfl <;> rfl) h))
      · exact .inr (.inr (marked (by rcases hb with rfl | rfl <;> rfl) h))
      · obtain ⟨m, hm, rfl⟩ := Option.map_eq_some_iff.mp h
        obtain ⟨hne, hdigits, rfl⟩ := digitsValue_ten_iff.mp hm
        -- a zero in front
        have hzero : Nat.ofDigitChars 10 (mark :: digits) 0 =
            Nat.ofDigitChars 10 ('0' :: mark :: digits) 0 := by
          simp [Nat.ofDigitChars_cons]
        rw [Int.ofNat_eq_natCast, hzero]
        exact .inr (.inl (.unsigned (by simp) (List.forall_mem_cons.mpr ⟨rfl, hdigits⟩)))
    · obtain ⟨m, hm, rfl⟩ := Option.map_eq_some_iff.mp h
      obtain ⟨hne, hdigits, rfl⟩ := digitsValue_ten_iff.mp hm
      exact .inr (.inl (.unsigned hne hdigits))
  · rintro (⟨rfl, rfl⟩ | h | ⟨m, h, rfl⟩)
    · rfl
    · exact h.stringToBigInt
    · exact h.stringToBigInt

end RatelPlatform
