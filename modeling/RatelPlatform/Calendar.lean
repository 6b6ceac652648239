import Mathlib.Data.List.Basic
import Mathlib.Tactic.IntervalCases

/-!
# Dates and their ISO text

`JsDate` is a valid ECMAScript `Date`: milliseconds since the epoch, at most
100 000 000 days away from it. `toISOString` is the one text the language gives
it, in the proleptic Gregorian calendar; it is injective, so two dates with the
same text are the same instant (`JsDate.toISOString_injective`).

The calendar goes through the 400-year era, with the year shifted to begin in
March so that the leap day comes last. Each field is a quotient whose remainder
is handed on to the next, which is what makes the text invertible: `daysOf` puts
the fields back together.
-/

namespace RatelPlatform

/-- Milliseconds in a day. -/
def dayMs : ℤ := 86400000

/-- A valid ECMAScript date. -/
structure JsDate where
  /-- milliseconds since 1970-01-01T00:00:00Z -/
  ms : ℤ
  /-- within 100 000 000 days of the epoch -/
  valid : -8640000000000000 ≤ ms ∧ ms ≤ 8640000000000000
  deriving DecidableEq

namespace JsDate

@[ext] theorem ext {a b : JsDate} (h : a.ms = b.ms) : a = b := by
  cases a
  cases b
  cases h
  rfl

/-- What a `DATE` column keeps of a timestamp: midnight of its day. -/
def day (t : JsDate) : JsDate :=
  ⟨t.ms / dayMs * dayMs, by have := t.valid; unfold dayMs; omega⟩

end JsDate

/-! ## The civil calendar -/

/-- A calendar day. -/
structure Civil where
  /-- the year, 0 being 1 BC -/
  year : ℤ
  /-- the month, 1 to 12 -/
  month : ℤ
  /-- the day of the month, from 1 -/
  dom : ℤ
  deriving DecidableEq

/-- A day of the 400-year era, which begins on 1 March. -/
structure EraDay where
  /-- the century of the era, 0 to 3 -/
  century : ℤ
  /-- the four-year cycle of the century -/
  cycle : ℤ
  /-- the year of the cycle, 0 to 3 -/
  year : ℤ
  /-- the day of the year, from 0 -/
  doy : ℤ

/-- Splits a day of the era. Only the last century of an era and the last year
of a cycle have a leap day, at their very end: hence the two minima. -/
def eraDay (doe : ℤ) : EraDay :=
  let century := min (doe / 36524) 3
  let r := doe - century * 36524
  let s := r % 1461
  let year := min (s / 365) 3
  { century := century, cycle := r / 1461, year := year, doy := s - year * 365 }

/-- The days of a March-based year before its month `mp` (0 is March). -/
def daysBeforeMonth (mp : ℤ) : ℤ := (153 * mp + 2) / 5

/-- The March-based month a day of the year lies in. -/
def shiftedMonth (doy : ℤ) : ℤ := (5 * doy + 2) / 153

/-- From the March-based year and month to the usual ones: January and February
belong to the year before. -/
def unshift (year mp dom : ℤ) : Civil :=
  if mp < 10 then ⟨year, mp + 3, dom⟩ else ⟨year + 1, mp - 9, dom⟩

/-- The calendar day a number of days after 1970-01-01. -/
def civilFromDays (days : ℤ) : Civil :=
  let z := days + 719468
  let e := eraDay (z % 146097)
  unshift (z / 146097 * 400 + e.century * 100 + e.cycle * 4 + e.year) (shiftedMonth e.doy)
    (e.doy - daysBeforeMonth (shiftedMonth e.doy) + 1)

/-- `date_trunc('month', …)`: the first day of the month. -/
def JsDate.month (t : JsDate) : Civil := { civilFromDays (t.ms / dayMs) with dom := 1 }

/-- The number of days after 1970-01-01 of a March-based date. -/
def daysOfShifted (year mp dom : ℤ) : ℤ :=
  year / 400 * 146097 + year % 400 / 100 * 36524 + year % 100 / 4 * 1461 + year % 4 * 365 +
    daysBeforeMonth mp + dom - 719469

/-- The number of days after 1970-01-01 of a calendar day. -/
def daysOf (c : Civil) : ℤ :=
  if 3 ≤ c.month then daysOfShifted c.year (c.month - 3) c.dom
  else daysOfShifted (c.year - 1) (c.month + 9) c.dom

theorem daysOf_unshift {year mp dom : ℤ} (h₀ : 0 ≤ mp) (h₁ : mp < 12) :
    daysOf (unshift year mp dom) = daysOfShifted year mp dom := by
  simp only [unshift]
  split_ifs with h
  · simp only [daysOf]
    rw [if_pos (by omega), add_sub_cancel_right]
  · simp only [daysOf]
    rw [if_neg (by omega), add_sub_cancel_right, sub_add_cancel]

/-- What the split of a day of the era guarantees. -/
theorem eraDay_spec (doe : ℤ) (h₀ : 0 ≤ doe) (h₁ : doe < 146097) :
    (0 ≤ (eraDay doe).century ∧ (eraDay doe).century ≤ 3) ∧
      (0 ≤ (eraDay doe).cycle ∧ (eraDay doe).cycle ≤ 24) ∧
      (0 ≤ (eraDay doe).year ∧ (eraDay doe).year ≤ 3) ∧
      (0 ≤ (eraDay doe).doy ∧ (eraDay doe).doy ≤ 365) ∧
      (eraDay doe).century * 36524 + (eraDay doe).cycle * 1461 + (eraDay doe).year * 365 +
        (eraDay doe).doy = doe := by
  simp only [eraDay]
  omega

theorem shiftedMonth_bounds {doy : ℤ} (h₀ : 0 ≤ doy) (h₁ : doy ≤ 365) :
    0 ≤ shiftedMonth doy ∧ shiftedMonth doy < 12 := by
  simp only [shiftedMonth]
  omega

/-- Months and days of the month have the ranges a calendar gives them. -/
theorem civilFromDays_bounds (days : ℤ) :
    (1 ≤ (civilFromDays days).month ∧ (civilFromDays days).month ≤ 12) ∧
      (1 ≤ (civilFromDays days).dom ∧ (civilFromDays days).dom ≤ 31) := by
  obtain ⟨-, -, -, ⟨d₀, d₁⟩, -⟩ := eraDay_spec ((days + 719468) % 146097)
    (by omega) (by omega)
  obtain ⟨m₀, m₁⟩ := shiftedMonth_bounds d₀ d₁
  have hdom : 1 ≤ (eraDay ((days + 719468) % 146097)).doy -
        daysBeforeMonth (shiftedMonth (eraDay ((days + 719468) % 146097)).doy) + 1 ∧
      (eraDay ((days + 719468) % 146097)).doy -
        daysBeforeMonth (shiftedMonth (eraDay ((days + 719468) % 146097)).doy) + 1 ≤ 31 := by
    simp only [daysBeforeMonth, shiftedMonth]
    omega
  simp only [civilFromDays, unshift]
  split_ifs with h
  · exact ⟨⟨by simp only; omega, by simp only; omega⟩, hdom⟩
  · exact ⟨⟨by simp only; omega, by simp only; omega⟩, hdom⟩

/-- **The calendar loses nothing**: a calendar day determines its day number. -/
theorem daysOf_civilFromDays (days : ℤ) : daysOf (civilFromDays days) = days := by
  obtain ⟨hc, hq, hy, ⟨d₀, d₁⟩, hsum⟩ := eraDay_spec ((days + 719468) % 146097)
    (by omega) (by omega)
  obtain ⟨m₀, m₁⟩ := shiftedMonth_bounds d₀ d₁
  simp only [civilFromDays]
  rw [daysOf_unshift m₀ m₁]
  generalize (eraDay ((days + 719468) % 146097)) = e at *
  obtain ⟨c, q, y, doy⟩ := e
  simp only at *
  -- the four parts of the year are read back one by one
  have h₁ : ((days + 719468) / 146097 * 400 + c * 100 + q * 4 + y) / 400 =
      (days + 719468) / 146097 := by omega
  have h₂ : ((days + 719468) / 146097 * 400 + c * 100 + q * 4 + y) % 400 / 100 = c := by omega
  have h₃ : ((days + 719468) / 146097 * 400 + c * 100 + q * 4 + y) % 100 = q * 4 + y := by omega
  have h₃' : (q * 4 + y) / 4 = q := by omega
  have h₄ : ((days + 719468) / 146097 * 400 + c * 100 + q * 4 + y) % 4 = y := by omega
  simp only [daysOfShifted]
  rw [h₁, h₂, h₃, h₃', h₄]
  omega

/-! ## The text -/

/-- The last `width` decimal digits of a number, leading zeros included. -/
def padDigits : ℕ → ℕ → List Char
  | 0, _ => []
  | width + 1, n => padDigits width (n / 10) ++ [Nat.digitChar (n % 10)]

@[simp] theorem padDigits_length (width n : ℕ) : (padDigits width n).length = width := by
  induction width generalizing n with
  | zero => rfl
  | succ width ih => simp [padDigits, ih]

theorem digitChar_injective {a b : ℕ} (ha : a < 10) (hb : b < 10)
    (h : Nat.digitChar a = Nat.digitChar b) : a = b := by
  interval_cases a <;> interval_cases b <;> first | rfl | exact absurd h (by decide)

theorem padDigits_injective {width a b : ℕ} (ha : a < 10 ^ width) (hb : b < 10 ^ width)
    (h : padDigits width a = padDigits width b) : a = b := by
  induction width generalizing a b with
  | zero => omega
  | succ width ih =>
    obtain ⟨hhi, hlo⟩ := List.append_inj' h rfl
    have hd : a / 10 = b / 10 := ih (by omega) (by omega) hhi
    have hm : a % 10 = b % 10 :=
      digitChar_injective (by omega) (by omega) (List.singleton_injective hlo)
    omega

/-- The year as `toISOString` writes it: four digits, or a sign and six. -/
def isoYear (y : ℤ) : List Char :=
  if 0 ≤ y ∧ y ≤ 9999 then padDigits 4 y.toNat
  else (if y < 0 then '-' else '+') :: padDigits 6 y.natAbs

/-- The time of the day, `THH:mm:ss.sssZ`. -/
def isoTime (ms : ℕ) : List Char :=
  'T' :: padDigits 2 (ms / 3600000) ++ ':' :: padDigits 2 (ms / 60000 % 60) ++
    ':' :: padDigits 2 (ms / 1000 % 60) ++ '.' :: padDigits 3 (ms % 1000) ++ ['Z']

/-- The month and day, `-MM-DD`. -/
def isoMonthDay (month dom : ℕ) : List Char :=
  '-' :: padDigits 2 month ++ '-' :: padDigits 2 dom

/-- `Date.prototype.toISOString`. -/
def JsDate.toISOString (t : JsDate) : List Char :=
  let c := civilFromDays (t.ms / dayMs)
  isoYear c.year ++ isoMonthDay c.month.toNat c.dom.toNat ++ isoTime (t.ms % dayMs).toNat

example : (JsDate.mk 1709210096789 (by decide)).toISOString = "2024-02-29T12:34:56.789Z".toList := by
  decide

theorem padDigits_ascii {width n : ℕ} : ∀ c ∈ padDigits width n, c.toNat < 128 := by
  induction width generalizing n with
  | zero => exact fun _ hc => absurd hc List.not_mem_nil
  | succ width ih =>
    intro c hc
    rcases List.mem_append.mp hc with hc | hc
    · exact ih c hc
    · rw [List.mem_singleton.mp hc]
      have key : ∀ d : Fin 10, (Nat.digitChar d.val).toNat < 128 := by decide
      exact key ⟨n % 10, Nat.mod_lt _ (by decide)⟩

/-- The text has no characters but ASCII ones. -/
theorem JsDate.toISOString_ascii (t : JsDate) : ∀ c ∈ t.toISOString, c.toNat < 128 := by
  intro c hc
  simp only [toISOString, isoYear, isoMonthDay, isoTime, List.mem_append, List.mem_cons,
    List.cons_append, List.not_mem_nil, or_false] at hc
  rcases hc with (hc | rfl | hc | rfl | hc) | rfl | (((hc | rfl | hc) | rfl | hc) | rfl | hc) | rfl
  · split_ifs at hc
    · exact padDigits_ascii c hc
    · rcases List.mem_cons.mp hc with rfl | hc
      · decide
      · exact padDigits_ascii c hc
    · rcases List.mem_cons.mp hc with rfl | hc
      · decide
      · exact padDigits_ascii c hc
  all_goals first | exact padDigits_ascii c hc | decide

theorem civilFromDays_year_bounds {days : ℤ} (h₀ : -100000000 ≤ days) (h₁ : days ≤ 100000000) :
    -1000000 < (civilFromDays days).year ∧ (civilFromDays days).year < 1000000 := by
  obtain ⟨hc, hq, hy, -, -⟩ := eraDay_spec ((days + 719468) % 146097) (by omega) (by omega)
  simp only [civilFromDays, unshift]
  split_ifs with h
  · simp only
    omega
  · simp only
    omega

theorem isoYear_injective {a b : ℤ} (ha : -1000000 < a ∧ a < 1000000)
    (hb : -1000000 < b ∧ b < 1000000) (h : isoYear a = isoYear b) : a = b := by
  have hlen := congrArg List.length h
  simp only [isoYear] at h hlen
  split_ifs at h hlen with h₁ h₂ h₃ h₄ h₅ h₆
  · have := padDigits_injective (by omega) (by omega) h
    omega
  · simp at hlen
  · simp at hlen
  · simp at hlen
  · have := padDigits_injective (by omega) (by omega) (List.cons.inj h).2
    omega
  · exact absurd (List.cons.inj h).1 (by decide)
  · simp at hlen
  · exact absurd (List.cons.inj h).1 (by decide)
  · have := padDigits_injective (by omega) (by omega) (List.cons.inj h).2
    omega

theorem isoMonthDay_injective {m d m' d' : ℕ} (hm : m < 100) (hd : d < 100) (hm' : m' < 100)
    (hd' : d' < 100) (h : isoMonthDay m d = isoMonthDay m' d') : m = m' ∧ d = d' := by
  obtain ⟨h₁, h₂⟩ := List.append_inj (List.cons.inj h).2 (by simp)
  exact ⟨padDigits_injective hm hm' h₁, padDigits_injective hd hd' (List.cons.inj h₂).2⟩

theorem isoTime_injective {a b : ℕ} (ha : a < 86400000) (hb : b < 86400000)
    (h : isoTime a = isoTime b) : a = b := by
  simp only [isoTime] at h
  simp only [List.cons_append, List.append_assoc] at h
  obtain ⟨hh, h⟩ := List.append_inj (List.cons.inj h).2 (by simp)
  obtain ⟨hm, h⟩ := List.append_inj (List.cons.inj h).2 (by simp)
  obtain ⟨hs, h⟩ := List.append_inj (List.cons.inj h).2 (by simp)
  obtain ⟨hms, -⟩ := List.append_inj (List.cons.inj h).2 (by simp)
  have h₁ := padDigits_injective (by omega) (by omega) hh
  have h₂ := padDigits_injective (by omega) (by omega) hm
  have h₃ := padDigits_injective (by omega) (by omega) hs
  have h₄ := padDigits_injective (by omega) (by omega) hms
  omega

/-- **The text determines the date.** -/
theorem JsDate.toISOString_injective {a b : JsDate} (h : a.toISOString = b.toISOString) :
    a = b := by
  have va := a.valid
  have vb := b.valid
  simp only [JsDate.toISOString] at h
  obtain ⟨h, htime⟩ := List.append_inj' h (by simp [isoTime])
  obtain ⟨hyear, hday⟩ := List.append_inj' h (by simp [isoMonthDay])
  obtain ⟨ma, da⟩ := civilFromDays_bounds (a.ms / dayMs)
  obtain ⟨mb, db⟩ := civilFromDays_bounds (b.ms / dayMs)
  have hy := isoYear_injective
    (civilFromDays_year_bounds (by unfold dayMs; omega) (by unfold dayMs; omega))
    (civilFromDays_year_bounds (by unfold dayMs; omega) (by unfold dayMs; omega)) hyear
  obtain ⟨hm, hd⟩ := isoMonthDay_injective (by omega) (by omega) (by omega) (by omega) hday
  have hciv : civilFromDays (a.ms / dayMs) = civilFromDays (b.ms / dayMs) := by
    generalize civilFromDays (a.ms / dayMs) = ca at *
    generalize civilFromDays (b.ms / dayMs) = cb at *
    obtain ⟨ya, mma, dda⟩ := ca
    obtain ⟨yb, mmb, ddb⟩ := cb
    simp only at *
    rw [hy, show mma = mmb by omega, show dda = ddb by omega]
  have hdays : a.ms / dayMs = b.ms / dayMs := by
    rw [← daysOf_civilFromDays (a.ms / dayMs), hciv, daysOf_civilFromDays]
  have ht := isoTime_injective (by unfold dayMs; omega) (by unfold dayMs; omega) htime
  ext
  simp only [dayMs] at hdays ht
  omega

end RatelPlatform
