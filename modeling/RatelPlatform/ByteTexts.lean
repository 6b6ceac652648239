import Mathlib.Data.List.Basic

/-!
# Texts as bytes, bytes as texts

`Buffer.from(text)` writes UTF-8 and `toString('utf8')` reads it, with a replacement character
for what is none. `toString('base64url')` writes three bytes as four characters, and
`Buffer.from(text, 'base64url')` skips what is no such character. Both come back as they were
(`utf8Decode_utf8Encode`, `fromBase64url_toBase64url`).
-/

namespace RatelPlatform

/-! ## UTF-8 -/

/-- The bytes of a character. -/
def utf8Bytes (c : Char) : List UInt8 :=
  let n := c.toNat
  if n < 0x80 then [.ofNat n]
  else if n < 0x800 then [.ofNat (0xC0 + n / 64), .ofNat (0x80 + n % 64)]
  else if n < 0x10000 then
    [.ofNat (0xE0 + n / 4096), .ofNat (0x80 + n / 64 % 64), .ofNat (0x80 + n % 64)]
  else [.ofNat (0xF0 + n / 262144), .ofNat (0x80 + n / 4096 % 64), .ofNat (0x80 + n / 64 % 64),
    .ofNat (0x80 + n % 64)]

/-- `Buffer.from(text)` -/
def utf8Encode (text : List Char) : List UInt8 := text.flatMap utf8Bytes

/-- Where a decoder stands. -/
inductive Utf8Decoder
  /-- between characters -/
  | idle
  /-- before the next byte of a character, which lies between the bounds, and so many others -/
  | within (others code lower upper : ℕ)

namespace Utf8Decoder

/-- U+FFFD -/
def replacement : Char := Char.ofNat 0xFFFD

/-- The first byte of a character. -/
def start (b : ℕ) : List Char × Utf8Decoder :=
  if b < 0x80 then ([Char.ofNat b], idle)
  else if 0xC2 ≤ b ∧ b < 0xE0 then ([], within 0 (b - 0xC0) 0x80 0xBF)
  else if 0xE0 ≤ b ∧ b < 0xF0 then
    -- neither overlong forms nor surrogates
    ([], within 1 (b - 0xE0) (if b = 0xE0 then 0xA0 else 0x80) (if b = 0xED then 0x9F else 0xBF))
  else if 0xF0 ≤ b ∧ b < 0xF5 then
    ([], within 2 (b - 0xF0) (if b = 0xF0 then 0x90 else 0x80) (if b = 0xF4 then 0x8F else 0xBF))
  else ([replacement], idle)

/-- One byte: what it completes, and where the decoder stands behind it. -/
def step : Utf8Decoder → ℕ → List Char × Utf8Decoder
  | idle, b => start b
  | within others code lower upper, b =>
    if lower ≤ b ∧ b ≤ upper then
      match others with
      | 0 => ([Char.ofNat (code * 64 + (b - 0x80))], idle)
      | others + 1 => ([], within others (code * 64 + (b - 0x80)) 0x80 0xBF)
    -- a character that breaks off is replaced, and the byte begins another one
    else (replacement :: (start b).1, (start b).2)

/-- The rest of the text. -/
def decode : Utf8Decoder → List UInt8 → List Char
  | idle, [] => []
  | within .., [] => [replacement]
  | d, b :: bytes => (d.step b.toNat).1 ++ decode (d.step b.toNat).2 bytes

end Utf8Decoder

/-- `toString('utf8')` -/
def utf8Decode (bytes : List UInt8) : List Char := Utf8Decoder.idle.decode bytes

namespace Utf8Decoder

theorem decode_cons (d : Utf8Decoder) (b : UInt8) (bytes : List UInt8) :
    d.decode (b :: bytes) = (d.step b.toNat).1 ++ (d.step b.toNat).2.decode bytes := by
  cases d <;> rfl

/-- A byte that begins a character or goes on with it. -/
theorem decode_ofNat (d : Utf8Decoder) {n : ℕ} (hn : n < 256) (bytes : List UInt8) :
    d.decode (.ofNat n :: bytes) = (d.step n).1 ++ (d.step n).2.decode bytes := by
  rw [decode_cons, UInt8.toNat_ofNat_of_lt' hn]

/-- The last byte of a character completes it. -/
theorem decode_last {code lower upper n : ℕ} (hlower : lower ≤ 0x80 + n) (hupper : 0x80 + n ≤ upper)
    (hn : n < 64) (bytes : List UInt8) :
    (within 0 code lower upper).decode (.ofNat (0x80 + n) :: bytes) =
      Char.ofNat (code * 64 + n) :: idle.decode bytes := by
  rw [decode_ofNat _ (by omega), step, if_pos ⟨hlower, hupper⟩]
  simp only [Nat.add_sub_cancel_left, List.singleton_append]

/-- The others prolong the code. -/
theorem decode_more {others code lower upper n : ℕ} (hlower : lower ≤ 0x80 + n)
    (hupper : 0x80 + n ≤ upper) (hn : n < 64) (bytes : List UInt8) :
    (within (others + 1) code lower upper).decode (.ofNat (0x80 + n) :: bytes) =
      (within others (code * 64 + n) 0x80 0xBF).decode bytes := by
  rw [decode_ofNat _ (by omega), step, if_pos ⟨hlower, hupper⟩]
  simp only [Nat.add_sub_cancel_left, List.nil_append]

end Utf8Decoder

open Utf8Decoder in
/-- A character is read from its bytes. -/
theorem decode_utf8Bytes (c : Char) (bytes : List UInt8) :
    idle.decode (utf8Bytes c ++ bytes) = c :: idle.decode bytes := by
  have hvalid : c.toNat < 0xD800 ∨ 0xDFFF < c.toNat ∧ c.toNat < 0x110000 := c.valid
  have hchar : Char.ofNat c.toNat = c := Char.ofNat_toNat c
  simp only [utf8Bytes]
  generalize c.toNat = n at hvalid hchar
  subst hchar
  split_ifs with h₁ h₂ h₃
  · rw [List.singleton_append, decode_ofNat _ (by omega), step, start, if_pos h₁]
    rfl
  · rw [List.cons_append, List.singleton_append, decode_ofNat _ (by omega), step, start,
      if_neg (by omega), if_pos (by omega), decode_last (by omega) (by omega) (by omega),
      show (0xC0 + n / 64 - 0xC0) * 64 + n % 64 = n by omega]
    rfl
  · rw [List.cons_append, List.cons_append, List.singleton_append, decode_ofNat _ (by omega),
      step, start, if_neg (by omega), if_neg (by omega), if_pos (by omega)]
    simp only [List.nil_append]
    rw [decode_more (by split_ifs <;> omega) (by split_ifs <;> omega) (by omega),
      decode_last (by omega) (by omega) (by omega),
      show ((0xE0 + n / 4096 - 0xE0) * 64 + n / 64 % 64) * 64 + n % 64 = n by omega]
  · rw [List.cons_append, List.cons_append, List.cons_append, List.singleton_append,
      decode_ofNat _ (by omega), step, start, if_neg (by omega), if_neg (by omega),
      if_neg (by omega), if_pos (by omega)]
    simp only [List.nil_append]
    rw [decode_more (by split_ifs <;> omega) (by split_ifs <;> omega) (by omega),
      decode_more (by omega) (by omega) (by omega),
      decode_last (by omega) (by omega) (by omega),
      show (((0xF0 + n / 262144 - 0xF0) * 64 + n / 4096 % 64) * 64 + n / 64 % 64) * 64 +
        n % 64 = n by omega]

/-- **UTF-8 loses nothing.** -/
theorem utf8Decode_utf8Encode (text : List Char) : utf8Decode (utf8Encode text) = text := by
  induction text with
  | nil => rfl
  | cons c text ih =>
    rw [utf8Encode, List.flatMap_cons, utf8Decode, decode_utf8Bytes]
    exact congrArg (c :: ·) ih

example : utf8Encode ['é', '€'] = [0xC3, 0xA9, 0xE2, 0x82, 0xAC] ∧
    utf8Decode [0x61, 0xE2, 0x82, 0x62] = ['a', Utf8Decoder.replacement, 'b'] := by
  decide

/-! ## base64url -/

/-- The character of six bits. -/
def base64Char (n : ℕ) : Char :=
  if n < 26 then Char.ofNat (65 + n)
  else if n < 52 then Char.ofNat (71 + n)
  else if n < 62 then Char.ofNat (n - 4)
  else if n = 62 then '-'
  else '_'

/-- The six bits of a character, of the other alphabet too. -/
def base64Value (c : Char) : Option ℕ :=
  if 'A' ≤ c ∧ c ≤ 'Z' then some (c.toNat - 65)
  else if 'a' ≤ c ∧ c ≤ 'z' then some (c.toNat - 71)
  else if '0' ≤ c ∧ c ≤ '9' then some (c.toNat + 4)
  else if c = '-' ∨ c = '+' then some 62
  else if c = '_' ∨ c = '/' then some 63
  else none

/-- Three bytes as four times six bits. There is no padding. -/
def sextets : List UInt8 → List ℕ
  | [] => []
  | [a] => [a.toNat / 4, a.toNat % 4 * 16]
  | [a, b] => [a.toNat / 4, a.toNat % 4 * 16 + b.toNat / 16, b.toNat % 16 * 4]
  | a :: b :: c :: bytes =>
    a.toNat / 4 :: (a.toNat % 4 * 16 + b.toNat / 16) :: (b.toNat % 16 * 4 + c.toNat / 64) ::
      c.toNat % 64 :: sextets bytes

/-- And back. -/
def ofSextets : List ℕ → List UInt8
  | w :: x :: y :: z :: rest =>
    .ofNat (w * 4 + x / 16) :: .ofNat (x % 16 * 16 + y / 4) :: .ofNat (y % 4 * 64 + z) ::
      ofSextets rest
  | [w, x, y] => [.ofNat (w * 4 + x / 16), .ofNat (x % 16 * 16 + y / 4)]
  | [w, x] => [.ofNat (w * 4 + x / 16)]
  | _ => []

/-- `toString('base64url')` -/
def toBase64url (bytes : List UInt8) : List Char := (sextets bytes).map base64Char

/-- `Buffer.from(text, 'base64url')` -/
def fromBase64url (text : List Char) : List UInt8 := ofSextets (text.filterMap base64Value)

theorem base64Value_base64Char {n : ℕ} (hn : n < 64) : base64Value (base64Char n) = some n := by
  have key : ∀ n : Fin 64, base64Value (base64Char n) = some n.val := by decide
  exact key ⟨n, hn⟩

theorem sextets_lt (bytes : List UInt8) : ∀ n ∈ sextets bytes, n < 64 := by
  induction bytes using sextets.induct with
  | case1 => exact fun _ hn => absurd hn List.not_mem_nil
  | case2 a =>
    have ha := a.toNat_lt
    simp only [sextets, List.mem_cons, List.not_mem_nil, or_false]
    omega
  | case3 a b =>
    have ha := a.toNat_lt
    have hb := b.toNat_lt
    simp only [sextets, List.mem_cons, List.not_mem_nil, or_false]
    omega
  | case4 a b c bytes ih =>
    have ha := a.toNat_lt
    have hb := b.toNat_lt
    have hc := c.toNat_lt
    simp only [sextets, List.mem_cons]
    rintro n (rfl | rfl | rfl | rfl | hn)
    · omega
    · omega
    · omega
    · omega
    · exact ih n hn

theorem ofSextets_sextets (bytes : List UInt8) : ofSextets (sextets bytes) = bytes := by
  induction bytes using sextets.induct with
  | case1 => rfl
  | case2 a =>
    have ha := a.toNat_lt
    rw [sextets, ofSextets, show a.toNat / 4 * 4 + a.toNat % 4 * 16 / 16 = a.toNat by omega,
      UInt8.ofNat_toNat]
  | case3 a b =>
    have ha := a.toNat_lt
    have hb := b.toNat_lt
    rw [sextets, ofSextets,
      show a.toNat / 4 * 4 + (a.toNat % 4 * 16 + b.toNat / 16) / 16 = a.toNat by omega,
      show (a.toNat % 4 * 16 + b.toNat / 16) % 16 * 16 + b.toNat % 16 * 4 / 4 = b.toNat by omega,
      UInt8.ofNat_toNat, UInt8.ofNat_toNat]
  | case4 a b c bytes ih =>
    have ha := a.toNat_lt
    have hb := b.toNat_lt
    have hc := c.toNat_lt
    rw [sextets, ofSextets, ih,
      show a.toNat / 4 * 4 + (a.toNat % 4 * 16 + b.toNat / 16) / 16 = a.toNat by omega,
      show (a.toNat % 4 * 16 + b.toNat / 16) % 16 * 16 + (b.toNat % 16 * 4 + c.toNat / 64) / 4 =
        b.toNat by omega,
      show (b.toNat % 16 * 4 + c.toNat / 64) % 4 * 64 + c.toNat % 64 = c.toNat by omega,
      UInt8.ofNat_toNat, UInt8.ofNat_toNat, UInt8.ofNat_toNat]

/-- **base64url loses nothing.** -/
theorem fromBase64url_toBase64url (bytes : List UInt8) :
    fromBase64url (toBase64url bytes) = bytes := by
  have hvalues : ((sextets bytes).map base64Char).filterMap base64Value = sextets bytes := by
    rw [List.filterMap_map]
    refine (List.filterMap_congr fun n hn => ?_).trans List.filterMap_some
    exact base64Value_base64Char (sextets_lt bytes n hn)
  rw [fromBase64url, toBase64url, hvalues, ofSextets_sextets]

example : toBase64url [0xFB, 0xFF, 0x61, 0x62] = "-_9hYg".toList ∧
    fromBase64url "+/9h Yg==".toList = [0xFB, 0xFF, 0x61, 0x62] := by
  decide

end RatelPlatform
