import Mathlib.Data.List.Basic
import Mathlib.Data.Fin.Basic

/-!
# Finite numbers and their text

`Number::toString` writes a finite number from the shortest decimal that reads
back as it: significant digits `s` and the place `n` of the decimal point, so
that the number is `0.s × 10 ^ n`. A `JsNumber` is that decimal (which determines
the double it is the shortest for); `-0` is written as `0` and counts as zero.

The text of a number, followed by anything that cannot belong to it, determines
the number (`JsNumber.text_append_inj`).
-/

namespace RatelPlatform

/-- A decimal without leading or trailing zeros. -/
structure Decimal where
  /-- the significant digits -/
  digits : List (Fin 10)
  /-- how many digits stand before the decimal point -/
  point : ℤ
  /-- there is a digit, and the first is not zero -/
  leading : ∃ d ds, digits = d :: ds ∧ d ≠ 0
  /-- the last digit is not zero -/
  trailing : ∀ d ∈ digits.getLast?, d ≠ 0

/-- A finite number. -/
inductive JsNumber
  /-- zero, of either sign -/
  | zero
  /-- any other number -/
  | nonzero (negative : Bool) (d : Decimal)

/-- A numeral, taken apart: `integer.fraction e exponent`. -/
structure Numeral where
  /-- the digits before the point -/
  integer : List (Fin 10)
  /-- the digits behind the point, which is not written when there are none -/
  fraction : List (Fin 10)
  /-- the exponent, when there is one -/
  exponent : Option ℤ

/-- The four formats of `Number::toString`, tried in the order the standard lists
them. -/
def Decimal.numeral (d : Decimal) : Numeral :=
  let k : ℤ := d.digits.length
  let n := d.point
  if k ≤ n ∧ n ≤ 21 then ⟨d.digits ++ List.replicate (n - k).toNat 0, [], none⟩
  else if 0 < n ∧ n ≤ 21 then ⟨d.digits.take n.toNat, d.digits.drop n.toNat, none⟩
  else if -6 < n ∧ n ≤ 0 then ⟨[0], List.replicate (-n).toNat 0 ++ d.digits, none⟩
  else ⟨d.digits.take 1, d.digits.drop 1, some (n - 1)⟩

/-- The characters of a row of digits. -/
def digitText (ds : List (Fin 10)) : List Char := ds.map fun d => Nat.digitChar d.val

/-- The exponent: its sign is always written. -/
def exponentText : Option ℤ → List Char
  | none => []
  | some e => 'e' :: (if e < 0 then '-' else '+') :: Nat.toDigits 10 e.natAbs

/-- The fraction with its point. -/
def fractionText : List (Fin 10) → List Char
  | [] => []
  | d :: ds => '.' :: digitText (d :: ds)

/-- The characters of a numeral. -/
def Numeral.text (m : Numeral) : List Char :=
  digitText m.integer ++ fractionText m.fraction ++ exponentText m.exponent

namespace JsNumber

/-- The sign, which zero does not have. -/
def negative : JsNumber → Bool
  | zero => false
  | nonzero negative _ => negative

/-- The numeral a number is written as. -/
def numeral : JsNumber → Numeral
  | zero => ⟨[0], [], none⟩
  | nonzero _ d => d.numeral

/-- `Number::toString`. -/
def text (x : JsNumber) : List Char :=
  if x.negative then '-' :: x.numeral.text else x.numeral.text

end JsNumber

/-! ## Splitting where a class of symbols ends -/

/-- Two splittings of one list at the first symbol outside a class are the same. -/
theorem append_inj_of_class {α : Type} {p : α → Prop} {a b r r' : List α} (ha : ∀ x ∈ a, p x)
    (hb : ∀ x ∈ b, p x) (hr : ∀ x ∈ r.head?, ¬ p x) (hr' : ∀ x ∈ r'.head?, ¬ p x)
    (h : a ++ r = b ++ r') : a = b ∧ r = r' := by
  induction a generalizing b with
  | nil =>
    rcases b with _ | ⟨y, b⟩
    · exact ⟨rfl, h⟩
    · refine absurd (hb y List.mem_cons_self) (hr y ?_)
      rw [show r = y :: (b ++ r') from h]
      rfl
  | cons x a ih =>
    rcases b with _ | ⟨y, b⟩
    · refine absurd (ha x List.mem_cons_self) (hr' x ?_)
      rw [← show x :: (a ++ r) = r' from h]
      rfl
    · obtain ⟨rfl, hrest⟩ := List.cons.inj h
      obtain ⟨rfl, rfl⟩ := ih (fun z hz => ha z (List.mem_cons_of_mem _ hz))
        (fun z hz => hb z (List.mem_cons_of_mem _ hz)) hrest
      exact ⟨rfl, rfl⟩

/-! ## A numeral determines its number -/

/-- Whatever the format, the digits written are the significant ones between
zeros, and the written point and exponent put the decimal point where it was. -/
theorem Decimal.numeral_spec (d : Decimal) :
    ∃ a b : ℕ, d.numeral.integer ++ d.numeral.fraction =
        List.replicate a 0 ++ (d.digits ++ List.replicate b 0) ∧
      (d.numeral.integer.length : ℤ) - a + d.numeral.exponent.getD 0 = d.point := by
  unfold Decimal.numeral
  simp only
  split_ifs with h₁ h₂ h₃
  · refine ⟨0, (d.point - d.digits.length).toNat, by simp, ?_⟩
    simp only [List.length_append, List.length_replicate, Option.getD_none]
    omega
  · refine ⟨0, 0, by simp, ?_⟩
    simp only [List.length_take, Option.getD_none]
    omega
  · refine ⟨1 + (-d.point).toNat, 0, ?_, ?_⟩
    · rw [List.replicate_add]
      simp
    · simp only [List.length_singleton, Option.getD_none]
      omega
  · refine ⟨0, 0, by rw [List.take_append_drop]; simp, ?_⟩
    obtain ⟨x, ds, hds, -⟩ := d.leading
    simp only [hds, List.take_succ_cons, List.take_zero, List.length_singleton, Option.getD_some]
    omega

theorem Decimal.head_ne (d : Decimal) (rest : List (Fin 10)) :
    ∀ x ∈ (d.digits ++ rest).head?, ¬ x = 0 := by
  obtain ⟨y, ds, hds, hy⟩ := d.leading
  intro x hx
  rw [hds] at hx
  obtain rfl := Option.some.inj hx
  exact hy

/-- Zeros around the significant digits can be told from them. -/
theorem Decimal.digits_unique {d d' : Decimal} {a b a' b' : ℕ}
    (h : List.replicate a 0 ++ (d.digits ++ List.replicate b 0) =
      List.replicate a' 0 ++ (d'.digits ++ List.replicate b' 0)) :
    a = a' ∧ d.digits = d'.digits := by
  obtain ⟨hzeros, hdigits⟩ := append_inj_of_class (p := fun x : Fin 10 => x = 0)
    (fun _ hx => List.eq_of_mem_replicate hx) (fun _ hx => List.eq_of_mem_replicate hx)
    (d.head_ne _) (d'.head_ne _) h
  refine ⟨by simpa using congrArg List.length hzeros, ?_⟩
  -- the trailing zeros, read from the right
  have hrev := congrArg List.reverse hdigits
  simp only [List.reverse_append, List.reverse_replicate] at hrev
  obtain ⟨-, hd⟩ := append_inj_of_class (p := fun x : Fin 10 => x = 0)
    (fun _ hx => List.eq_of_mem_replicate hx) (fun _ hx => List.eq_of_mem_replicate hx)
    (by rw [List.head?_reverse]; exact d.trailing) (by rw [List.head?_reverse]; exact d'.trailing)
    hrev
  exact List.reverse_injective hd

theorem Decimal.numeral_injective {d d' : Decimal} (h : d.numeral = d'.numeral) : d = d' := by
  obtain ⟨a, b, hdigits, hpoint⟩ := d.numeral_spec
  obtain ⟨a', b', hdigits', hpoint'⟩ := d'.numeral_spec
  rw [h] at hdigits hpoint
  obtain ⟨rfl, hds⟩ := Decimal.digits_unique (hdigits.symm.trans hdigits')
  have hp : d.point = d'.point := hpoint.symm.trans hpoint'
  obtain ⟨ds, n, hl, ht⟩ := d
  obtain ⟨ds', n', hl', ht'⟩ := d'
  obtain rfl : ds = ds' := hds
  obtain rfl : n = n' := hp
  rfl

/-- Zero is written with the digit zero alone, and no other number is. -/
theorem Decimal.numeral_ne_zero (d : Decimal) : d.numeral ≠ ⟨[0], [], none⟩ := by
  intro h
  obtain ⟨a, b, hdigits, -⟩ := d.numeral_spec
  obtain ⟨x, ds, hds, hx⟩ := d.leading
  rw [h] at hdigits
  have hmem : x ∈ List.replicate a 0 ++ (d.digits ++ List.replicate b 0) := by
    rw [hds]
    simp
  rw [← hdigits] at hmem
  exact hx (List.mem_singleton.mp hmem)

theorem JsNumber.numeral_injective {x y : JsNumber} (hs : x.negative = y.negative)
    (h : x.numeral = y.numeral) : x = y := by
  rcases x with _ | ⟨s, d⟩ <;> rcases y with _ | ⟨s', d'⟩
  · rfl
  · exact absurd h.symm d'.numeral_ne_zero
  · exact absurd h d.numeral_ne_zero
  · obtain rfl : s = s' := hs
    rw [Decimal.numeral_injective h]

/-! ## The text determines the numeral -/

theorem digitText_injective {ds ds' : List (Fin 10)} (h : digitText ds = digitText ds') :
    ds = ds' := by
  have key : ∀ a b : Fin 10, Nat.digitChar a.val = Nat.digitChar b.val → a = b := by decide
  exact List.map_injective_iff.mpr (fun a b hab => key a b hab) h

theorem isDigit_of_mem_digitText {ds : List (Fin 10)} {c : Char} (h : c ∈ digitText ds) :
    c.isDigit := by
  obtain ⟨d, -, rfl⟩ := List.mem_map.mp h
  exact (show ∀ d : Fin 10, (Nat.digitChar d.val).isDigit by decide) d

theorem toDigits_injective {m n : ℕ} (h : Nat.toDigits 10 m = Nat.toDigits 10 n) : m = n := by
  rw [← @Nat.ofDigitChars_ten_toDigits m, h, Nat.ofDigitChars_ten_toDigits]

/-- What can stand behind a numeral: nothing, or a symbol no numeral contains. -/
def EndsNumber (r : List Char) : Prop :=
  ∀ c ∈ r.head?, ¬ c.isDigit ∧ c ≠ '.' ∧ c ≠ 'e'

theorem exponentText_append_inj {e e' : Option ℤ} {r r' : List Char} (hr : EndsNumber r)
    (hs : EndsNumber r') (h : exponentText e ++ r = exponentText e' ++ r') :
    e = e' ∧ r = r' := by
  rcases e with _ | e <;> rcases e' with _ | e'
  · exact ⟨rfl, h⟩
  · refine absurd rfl (hr 'e' ?_).2.2
    rw [show r = _ from h]
    rfl
  · refine absurd rfl (hs 'e' ?_).2.2
    rw [← show _ = r' from h]
    rfl
  · simp only [exponentText, List.cons_append, List.cons.injEq, true_and] at h
    obtain ⟨hsign, hdigits⟩ := h
    obtain ⟨habs, hrest⟩ := append_inj_of_class (p := fun c : Char => c.isDigit)
      (fun _ hc => Nat.isDigit_of_mem_toDigits (by decide) (by decide) hc)
      (fun _ hc => Nat.isDigit_of_mem_toDigits (by decide) (by decide) hc)
      (fun c hc => (hr c hc).1) (fun c hc => (hs c hc).1) hdigits
    have hnat := toDigits_injective habs
    refine ⟨?_, hrest⟩
    split_ifs at hsign with h₁ h₂ h₂
    · rw [show e = e' by omega]
    · exact absurd hsign (by decide)
    · exact absurd hsign (by decide)
    · rw [show e = e' by omega]

/-- An exponent, or what stands behind the numeral, ends a row of digits and is no point. -/
theorem exponentText_ends {e : Option ℤ} {r : List Char} (hr : EndsNumber r) :
    ∀ c ∈ (exponentText e ++ r).head?, ¬ c.isDigit ∧ c ≠ '.' := by
  rcases e with _ | e
  · intro c hc
    exact ⟨(hr c hc).1, (hr c hc).2.1⟩
  · intro c hc
    obtain rfl := Option.some.inj hc
    decide

theorem fractionText_append_inj {f f' : List (Fin 10)} {r r' : List Char}
    (hr : ∀ c ∈ r.head?, ¬ c.isDigit ∧ c ≠ '.') (hs : ∀ c ∈ r'.head?, ¬ c.isDigit ∧ c ≠ '.')
    (h : fractionText f ++ r = fractionText f' ++ r') : f = f' ∧ r = r' := by
  rcases f with _ | ⟨d, f⟩ <;> rcases f' with _ | ⟨d', f'⟩
  · exact ⟨rfl, h⟩
  · refine absurd rfl (hr '.' ?_).2
    rw [show r = _ from h]
    rfl
  · refine absurd rfl (hs '.' ?_).2
    rw [← show _ = r' from h]
    rfl
  · obtain ⟨hdigits, hrest⟩ := append_inj_of_class (p := fun c : Char => c.isDigit)
      (fun _ hc => isDigit_of_mem_digitText hc) (fun _ hc => isDigit_of_mem_digitText hc)
      (fun c hc => (hr c hc).1) (fun c hc => (hs c hc).1) (List.cons.inj h).2
    exact ⟨digitText_injective hdigits, hrest⟩

theorem fractionText_ends {f : List (Fin 10)} {r : List Char}
    (hr : ∀ c ∈ r.head?, ¬ c.isDigit ∧ c ≠ '.') : ∀ c ∈ (fractionText f ++ r).head?, ¬ c.isDigit := by
  rcases f with _ | ⟨d, f⟩
  · intro c hc
    exact (hr c hc).1
  · intro c hc
    obtain rfl := Option.some.inj hc
    decide

theorem Numeral.text_append_inj {m m' : Numeral} {r r' : List Char} (hr : EndsNumber r)
    (hr' : EndsNumber r') (h : m.text ++ r = m'.text ++ r') : m = m' ∧ r = r' := by
  simp only [Numeral.text, List.append_assoc] at h
  obtain ⟨hint, h⟩ := append_inj_of_class (p := fun c : Char => c.isDigit)
    (fun _ hc => isDigit_of_mem_digitText hc) (fun _ hc => isDigit_of_mem_digitText hc)
    (fractionText_ends (exponentText_ends hr)) (fractionText_ends (exponentText_ends hr')) h
  obtain ⟨hfrac, h⟩ := fractionText_append_inj (exponentText_ends hr) (exponentText_ends hr') h
  obtain ⟨hexp, hrest⟩ := exponentText_append_inj hr hr' h
  obtain ⟨i, f, e⟩ := m
  obtain ⟨i', f', e'⟩ := m'
  obtain rfl : i = i' := digitText_injective hint
  obtain rfl : f = f' := hfrac
  obtain rfl : e = e' := hexp
  exact ⟨rfl, hrest⟩

namespace JsNumber

/-- A numeral begins with a digit. -/
theorem numeral_text_head (x : JsNumber) : ∃ c cs, x.numeral.text = c :: cs ∧ c.isDigit := by
  have hint : ∃ i is, x.numeral.integer = i :: is := by
    rcases x with _ | ⟨s, d⟩
    · exact ⟨0, [], rfl⟩
    · obtain ⟨y, ds, hds, -⟩ := d.leading
      simp only [numeral, Decimal.numeral]
      split_ifs with h₁ h₂
      · exact ⟨y, _, by rw [hds]; rfl⟩
      · refine ⟨y, ds.take (d.point.toNat - 1), ?_⟩
        rw [hds, ← List.take_succ_cons, show d.point.toNat - 1 + 1 = d.point.toNat by omega]
      · exact ⟨0, [], rfl⟩
      · exact ⟨y, [], by rw [hds]; rfl⟩
  obtain ⟨i, is, hi⟩ := hint
  refine ⟨Nat.digitChar i.val, digitText is ++ fractionText x.numeral.fraction ++
    exponentText x.numeral.exponent, ?_, ?_⟩
  · rw [Numeral.text, hi]
    rfl
  · exact (show ∀ d : Fin 10, (Nat.digitChar d.val).isDigit by decide) i

/-- The text of a number begins with a digit or a minus sign. -/
theorem text_head (x : JsNumber) : ∃ c cs, x.text = c :: cs ∧ (c.isDigit ∨ c = '-') := by
  obtain ⟨c, cs, htext, hc⟩ := x.numeral_text_head
  simp only [text]
  split_ifs with h
  · exact ⟨'-', _, rfl, .inr rfl⟩
  · exact ⟨c, cs, htext, .inl hc⟩

/-- **The text of a number determines it**, and says where it ends. -/
theorem text_append_inj {x y : JsNumber} {r r' : List Char} (hr : EndsNumber r)
    (hr' : EndsNumber r') (h : x.text ++ r = y.text ++ r') : x = y ∧ r = r' := by
  obtain ⟨c, cs, hx, hc⟩ := x.numeral_text_head
  obtain ⟨c', cs', hy, hc'⟩ := y.numeral_text_head
  simp only [text] at h
  split_ifs at h with h₁ h₂ h₂
  · obtain ⟨hnum, hrest⟩ := Numeral.text_append_inj hr hr' (List.cons.inj h).2
    exact ⟨numeral_injective (h₁.trans h₂.symm) hnum, hrest⟩
  · rw [hy] at h
    obtain rfl := (List.cons.inj h).1
    exact absurd hc' (by decide)
  · rw [hx] at h
    obtain rfl := (List.cons.inj h).1
    exact absurd hc (by decide)
  · obtain ⟨hnum, hrest⟩ := Numeral.text_append_inj hr hr' h
    refine ⟨numeral_injective ?_ hnum, hrest⟩
    rw [Bool.not_eq_true] at h₁ h₂
    exact h₁.trans h₂.symm

end JsNumber

example : (JsNumber.nonzero true ⟨[1, 2, 5], -7, ⟨1, [2, 5], rfl, by decide⟩, by decide⟩).text =
    "-1.25e-8".toList := by
  decide

end RatelPlatform
