import Mathlib.Data.List.Basic

/-!
# Strings and their JSON text

A JavaScript string is any sequence of UTF-16 code units, lone surrogates
included. `JSON.stringify` quotes it code point by code point and escapes what
the text may not hold, so that the quoted text is always well-formed Unicode:
hence `List Char` on the right.

Quoting is a prefix code (`quote_append_inj`): a quoted string says where it ends,
whatever stands behind it.
-/

namespace RatelPlatform

/-- A string of the language: its UTF-16 code units. -/
abbrev JsString := List UInt16

/-- The string of an ASCII text. -/
def JsString.ofAscii (text : List Char) : JsString := text.map fun c => c.toNat.toUInt16

/-- The string a literal of the source denotes (all of those used here are ASCII). -/
abbrev js (literal : String) : JsString := JsString.ofAscii literal.toList

/-- What holds of every unit of a string is checked unit by unit. -/
instance JsString.decidableForallMem (s : JsString) (p : UInt16 → Prop) [DecidablePred p] :
    Decidable (∀ u ∈ s, p u) := List.decidableBAll p s

theorem JsString.ofAscii_injective {a b : List Char} (ha : ∀ c ∈ a, c.toNat < 128)
    (hb : ∀ c ∈ b, c.toNat < 128) (h : JsString.ofAscii a = JsString.ofAscii b) : a = b := by
  induction a generalizing b with
  | nil => exact (List.map_eq_nil_iff.mp h.symm).symm
  | cons c a ih =>
    rcases b with _ | ⟨d, b⟩
    · exact absurd h (List.cons_ne_nil _ _)
    · obtain ⟨hhead, htail⟩ := List.cons.inj h
      have hc := ha c List.mem_cons_self
      have hd := hb d List.mem_cons_self
      have hcd : c = d := by
        rw [← Char.toNat_inj]
        have := congrArg UInt16.toNat hhead
        simp only [Nat.toUInt16_eq, UInt16.toNat_ofNat'] at this
        omega
      rw [hcd, ih (fun x hx => ha x (List.mem_cons_of_mem _ hx))
        (fun x hx => hb x (List.mem_cons_of_mem _ hx)) htail]

/-! ## Code points -/

/-- The first unit of a surrogate pair. -/
def isLead (u : UInt16) : Bool := 0xD800 ≤ u.toNat && u.toNat < 0xDC00

/-- The second unit of a surrogate pair. -/
def isTrail (u : UInt16) : Bool := 0xDC00 ≤ u.toNat && u.toNat < 0xE000

/-- A code point of a string: a surrogate pair, or any other code unit. -/
inductive CodePoint
  /-- a unit outside every pair -/
  | unit (u : UInt16)
  /-- a lead surrogate and the trail surrogate behind it -/
  | pair (lead trail : UInt16) (h : isLead lead ∧ isTrail trail)

namespace CodePoint

/-- The code units of a code point. -/
def units : CodePoint → JsString
  | unit u => [u]
  | pair lead trail _ => [lead, trail]

/-- The number of a code point. -/
def value : CodePoint → ℕ
  | unit u => u.toNat
  | pair lead trail _ => (lead.toNat - 0xD800) * 0x400 + (trail.toNat - 0xDC00) + 0x10000

theorem value_injective {p q : CodePoint} (h : p.value = q.value) : p = q := by
  rcases p with u | ⟨l, t, hlt⟩ <;> rcases q with v | ⟨l', t', hlt'⟩
  · rw [UInt16.toNat_inj.mp h]
  · have := u.toNat_lt
    simp only [value] at h
    omega
  · have := v.toNat_lt
    simp only [value] at h
    omega
  · simp only [isLead, isTrail, Bool.and_eq_true, decide_eq_true_eq] at hlt hlt'
    simp only [value] at h
    obtain rfl := UInt16.toNat_inj.mp (show l.toNat = l'.toNat by omega)
    obtain rfl := UInt16.toNat_inj.mp (show t.toNat = t'.toNat by omega)
    rfl

end CodePoint

/-- `StringToCodePoints`: pairs are joined, lone surrogates stay. -/
def codePoints : JsString → List CodePoint
  | [] => []
  | [u] => [.unit u]
  | u :: v :: s =>
    if h : isLead u ∧ isTrail v then .pair u v h :: codePoints s
    else .unit u :: codePoints (v :: s)

/-- Joining the units of a string into code points loses none of them. -/
theorem flatMap_units_codePoints (s : JsString) : (codePoints s).flatMap CodePoint.units = s := by
  induction s using codePoints.induct with
  | case1 => rfl
  | case2 u => rfl
  | case3 u v s h ih =>
    rw [codePoints, dif_pos h, List.flatMap_cons, ih]
    rfl
  | case4 u v s h ih =>
    rw [codePoints, dif_neg h, List.flatMap_cons, ih]
    rfl

theorem codePoints_injective {s t : JsString} (h : codePoints s = codePoints t) : s = t := by
  rw [← flatMap_units_codePoints s, h, flatMap_units_codePoints]

/-! ## Escapes -/

/-- The two-character escapes of `QuoteJSONString`. -/
def shortEscape : ℕ → Option Char
  | 0x08 => some 'b'
  | 0x09 => some 't'
  | 0x0A => some 'n'
  | 0x0C => some 'f'
  | 0x0D => some 'r'
  | 0x22 => some '"'
  | 0x5C => some '\\'
  | _ => none

theorem shortEscape_injective {m n : ℕ} {e : Char} (hm : shortEscape m = some e)
    (hn : shortEscape n = some e) : m = n := by
  simp only [shortEscape] at hm hn
  split at hm <;> cases hm <;> split at hn <;> first | rfl | cases hn

theorem shortEscape_ne_u {n : ℕ} {e : Char} (h : shortEscape n = some e) : e ≠ 'u' := by
  simp only [shortEscape] at h
  split at h <;> cases h <;> decide

/-- The lower-case hexadecimal digits of a code unit. -/
def hex4 (n : ℕ) : List Char :=
  [Nat.digitChar (n / 4096), Nat.digitChar (n / 256 % 16), Nat.digitChar (n / 16 % 16),
    Nat.digitChar (n % 16)]

theorem hexDigit_injective {a b : ℕ} (ha : a < 16) (hb : b < 16)
    (h : Nat.digitChar a = Nat.digitChar b) : a = b := by
  have key : ∀ a : Fin 16, ∀ b : Fin 16, Nat.digitChar a = Nat.digitChar b → a = b := by decide
  exact congrArg Fin.val (key ⟨a, ha⟩ ⟨b, hb⟩ h)

theorem hex4_injective {m n : ℕ} (hm : m < 65536) (hn : n < 65536) (h : hex4 m = hex4 n) :
    m = n := by
  simp only [hex4, List.cons.injEq, and_true] at h
  obtain ⟨h₃, h₂, h₁, h₀⟩ := h
  have := hexDigit_injective (by omega) (by omega) h₃
  have := hexDigit_injective (by omega) (by omega) h₂
  have := hexDigit_injective (by omega) (by omega) h₁
  have := hexDigit_injective (by omega) (by omega) h₀
  omega

/-- A code point inside a quoted string. -/
def escape (p : CodePoint) : List Char :=
  match shortEscape p.value with
  | some e => ['\\', e]
  | none =>
    -- the other control characters, and surrogates that are in no pair
    if p.value < 0x20 ∨ (0xD800 ≤ p.value ∧ p.value < 0xE000) then '\\' :: 'u' :: hex4 p.value
    else [Char.ofNat p.value]

/-- `QuoteJSONString`. -/
def quote (s : JsString) : List Char := '"' :: (codePoints s).flatMap escape ++ ['"']

theorem CodePoint.value_lt (p : CodePoint) : p.value < 0x110000 := by
  rcases p with u | ⟨l, t, hlt⟩
  · have := u.toNat_lt
    simp only [value]
    omega
  · simp only [isLead, isTrail, Bool.and_eq_true, decide_eq_true_eq] at hlt
    simp only [value]
    omega

theorem toNat_ofNat {n : ℕ} (h : n.isValidChar) : (Char.ofNat n).toNat = n := by
  unfold Char.ofNat
  rw [dif_pos h]
  rfl

/-- The three shapes of an escape, each with what it says of its code point. -/
theorem escape_cases (p : CodePoint) :
    (∃ e, shortEscape p.value = some e ∧ escape p = ['\\', e]) ∨
      (p.value < 65536 ∧ escape p = '\\' :: 'u' :: hex4 p.value) ∨
      (∃ c : Char, c ≠ '\\' ∧ c ≠ '"' ∧ c.toNat = p.value ∧ escape p = [c]) := by
  simp only [escape]
  split
  · rename_i e he
    exact .inl ⟨e, he, rfl⟩
  · rename_i hnone
    split_ifs with h
    · exact .inr (.inl ⟨by omega, rfl⟩)
    · have hval : (Char.ofNat p.value).toNat = p.value := by
        refine toNat_ofNat ?_
        have := p.value_lt
        simp only [Nat.isValidChar]
        omega
      refine .inr (.inr ⟨_, ?_, ?_, hval, rfl⟩)
      · rintro hc
        rw [hc] at hval
        rw [← hval] at hnone
        exact absurd hnone (by decide)
      · rintro hc
        rw [hc] at hval
        rw [← hval] at hnone
        exact absurd hnone (by decide)

/-- The closing quote begins no escape. -/
theorem escape_append_ne_quote (p : CodePoint) (r r' : List Char) : escape p ++ r ≠ '"' :: r' := by
  rcases escape_cases p with ⟨e, -, h⟩ | ⟨-, h⟩ | ⟨c, -, hc, -, h⟩
  · rw [h]
    simp
  · rw [h]
    simp
  · rw [h]
    simp [hc]

/-- Escapes are a prefix code. -/
theorem escape_append_inj {p q : CodePoint} {r r' : List Char}
    (h : escape p ++ r = escape q ++ r') : p = q ∧ r = r' := by
  suffices hs : p.value = q.value ∧ r = r' from ⟨CodePoint.value_injective hs.1, hs.2⟩
  rcases escape_cases p with ⟨e, he, hp⟩ | ⟨hlt, hp⟩ | ⟨c, hc, -, hcp, hp⟩ <;>
    rcases escape_cases q with ⟨e', he', hq⟩ | ⟨hlt', hq⟩ | ⟨c', hc', -, hcq, hq⟩ <;>
    rw [hp, hq] at h <;>
    simp only [List.cons_append, List.nil_append, List.cons.injEq] at h
  · obtain ⟨-, rfl, hr⟩ := h
    exact ⟨shortEscape_injective he he', hr⟩
  · exact absurd h.2.1 (shortEscape_ne_u he)
  · exact absurd h.1.symm hc'
  · exact absurd h.2.1.symm (shortEscape_ne_u he')
  · obtain ⟨hhex, hr⟩ := List.append_inj h.2.2 rfl
    exact ⟨hex4_injective hlt hlt' hhex, hr⟩
  · exact absurd h.1.symm hc'
  · exact absurd h.1 hc
  · exact absurd h.1 hc
  · obtain ⟨rfl, hr⟩ := h
    exact ⟨hcp.symm.trans hcq, hr⟩

theorem flatMap_escape_inj {ps qs : List CodePoint} {r r' : List Char}
    (h : ps.flatMap escape ++ '"' :: r = qs.flatMap escape ++ '"' :: r') : ps = qs ∧ r = r' := by
  induction ps generalizing qs with
  | nil =>
    rcases qs with _ | ⟨q, qs⟩
    · exact ⟨rfl, (List.cons.inj h).2⟩
    · rw [List.flatMap_cons, List.append_assoc] at h
      exact absurd h.symm (escape_append_ne_quote _ _ _)
  | cons p ps ih =>
    rcases qs with _ | ⟨q, qs⟩
    · rw [List.flatMap_cons, List.append_assoc] at h
      exact absurd h (escape_append_ne_quote _ _ _)
    · rw [List.flatMap_cons, List.flatMap_cons, List.append_assoc, List.append_assoc] at h
      obtain ⟨rfl, hrest⟩ := escape_append_inj h
      obtain ⟨rfl, hr⟩ := ih hrest
      exact ⟨rfl, hr⟩

/-- **A quoted string says where it ends, and which string it quotes.** -/
theorem quote_append_inj {s t : JsString} {r r' : List Char} (h : quote s ++ r = quote t ++ r') :
    s = t ∧ r = r' := by
  simp only [quote, List.cons_append, List.append_assoc, List.nil_append,
    List.cons.injEq, true_and] at h
  obtain ⟨hpoints, hr⟩ := flatMap_escape_inj h
  exact ⟨codePoints_injective hpoints, hr⟩

example : quote (js "a\"\n" ++ [0xD83D, 0xDE00, 0xD83D]) = "\"a\\\"\\n😀\\ud83d\"".toList := by
  decide

end RatelPlatform
