import Mathlib.Algebra.Group.Nat.Defs
import Mathlib.Data.List.Basic

/-!
# Buffers

What `Buffer` offers to write and to read a layout of fields, one behind the other. Offsets run
from the beginning: what stands at the offset `a.length` of `a ++ s` is the beginning of `s`, and
so every operation has a lemma about a buffer of which a part `a` is done (`copy_append`,
`subarray_of_prefix`, `readUInt32BE_of_prefix`).

A value that does not fit, or an offset beyond the end, is a `RangeError`, here `none`. A copy
is cut at the end of its target, and a subarray at the end of its source.
-/

namespace RatelPlatform

/-- The content of a buffer. -/
abbrev Bytes := List UInt8

namespace Bytes

/-- `Buffer.alloc` -/
def alloc (size : ℕ) : Bytes := List.replicate size 0

/-- `source.copy(target, offset)`: the target -/
def copy (source target : Bytes) (offset : ℕ) : Bytes :=
  target.take offset ++ source.take (target.length - offset) ++
    target.drop (offset + source.length)

/-- `subarray(begin, end)` -/
def subarray (bytes : Bytes) (first last : ℕ) : Bytes := (bytes.take last).drop first

/-- The four bytes of a number, the most significant one first. -/
def uint32BE (n : ℕ) : Bytes :=
  [.ofNat (n / 16777216), .ofNat (n / 65536 % 256), .ofNat (n / 256 % 256), .ofNat (n % 256)]

/-- The number that four bytes stand for. -/
def ofUInt32BE (b₀ b₁ b₂ b₃ : UInt8) : ℕ :=
  b₀.toNat * 16777216 + b₁.toNat * 65536 + b₂.toNat * 256 + b₃.toNat

/-- `writeUInt8` -/
def writeUInt8 (bytes : Bytes) (value offset : ℕ) : Option Bytes :=
  if value < 2 ^ 8 ∧ offset + 1 ≤ bytes.length then some (copy [.ofNat value] bytes offset)
  else none

/-- `writeUInt32BE` -/
def writeUInt32BE (bytes : Bytes) (value offset : ℕ) : Option Bytes :=
  if value < 2 ^ 32 ∧ offset + 4 ≤ bytes.length then some (copy (uint32BE value) bytes offset)
  else none

/-- `readUInt8` -/
def readUInt8 (bytes : Bytes) (offset : ℕ) : Option ℕ := bytes[offset]?.map UInt8.toNat

/-- `readUInt32BE` -/
def readUInt32BE (bytes : Bytes) (offset : ℕ) : Option ℕ :=
  match bytes.drop offset with
  | b₀ :: b₁ :: b₂ :: b₃ :: _ => some (ofUInt32BE b₀ b₁ b₂ b₃)
  | _ => none

/-! ## Writing behind what is done -/

@[simp] theorem length_alloc (size : ℕ) : (alloc size).length = size := List.length_replicate

@[simp] theorem length_uint32BE (n : ℕ) : (uint32BE n).length = 4 := rfl

/-- What is copied behind `a` stands there, and the rest of the target behind it. -/
theorem copy_append {source a t : Bytes} {offset : ℕ} (hoffset : a.length = offset)
    (hfits : source.length ≤ t.length) :
    copy source (a ++ t) offset = a ++ source ++ t.drop source.length := by
  subst hoffset
  rw [copy, List.take_left, List.length_append, Nat.add_sub_cancel_left,
    List.take_of_length_le hfits, List.drop_append]
  simp

/-- Filling a part of what has been allocated. -/
theorem copy_alloc {source a : Bytes} {offset size : ℕ} (hoffset : a.length = offset)
    (hfits : source.length ≤ size) :
    copy source (a ++ alloc size) offset = (a ++ source) ++ alloc (size - source.length) := by
  rw [copy_append hoffset (by rwa [length_alloc]), alloc, alloc, List.drop_replicate]

theorem writeUInt8_alloc {a : Bytes} {value offset size : ℕ} (hoffset : a.length = offset)
    (hvalue : value < 2 ^ 8) (hfits : 1 ≤ size) :
    writeUInt8 (a ++ alloc size) value offset = some ((a ++ [.ofNat value]) ++ alloc (size - 1)) := by
  have hlength : offset + 1 ≤ (a ++ alloc size).length := by
    rw [List.length_append, length_alloc]
    omega
  rw [writeUInt8, if_pos ⟨hvalue, hlength⟩, copy_alloc hoffset hfits]
  rfl

theorem writeUInt32BE_alloc {a : Bytes} {value offset size : ℕ} (hoffset : a.length = offset)
    (hvalue : value < 2 ^ 32) (hfits : 4 ≤ size) :
    writeUInt32BE (a ++ alloc size) value offset =
      some ((a ++ uint32BE value) ++ alloc (size - 4)) := by
  have hlength : offset + 4 ≤ (a ++ alloc size).length := by
    rw [List.length_append, length_alloc]
    omega
  rw [writeUInt32BE, if_pos ⟨hvalue, hlength⟩, copy_alloc hoffset hfits]
  rfl

/-! ## Reading behind what has been read -/

theorem subarray_of_prefix {bytes a s : Bytes} {first last : ℕ} (hstart : a ++ s <+: bytes)
    (hfirst : a.length = first) (hlast : first + s.length = last) :
    bytes.subarray first last = s := by
  obtain ⟨t, rfl⟩ := hstart
  subst hfirst hlast
  rw [subarray, ← List.length_append, List.take_left, List.drop_left]

/-- Four bytes stand for a number below `2 ^ 32`, and are its bytes. -/
theorem uint32BE_ofUInt32BE (b₀ b₁ b₂ b₃ : UInt8) :
    ofUInt32BE b₀ b₁ b₂ b₃ < 2 ^ 32 ∧ uint32BE (ofUInt32BE b₀ b₁ b₂ b₃) = [b₀, b₁, b₂, b₃] := by
  have h₀ := b₀.toNat_lt
  have h₁ := b₁.toNat_lt
  have h₂ := b₂.toNat_lt
  have h₃ := b₃.toNat_lt
  have byte {n : ℕ} {b : UInt8} (h : n = b.toNat) : UInt8.ofNat n = b := by
    rw [h, UInt8.ofNat_toNat]
  unfold ofUInt32BE
  refine ⟨by omega, ?_⟩
  rw [uint32BE, byte (b := b₀) (by omega), byte (b := b₁) (by omega), byte (b := b₂) (by omega),
    byte (b := b₃) (by omega)]

/-- A number below `2 ^ 32` is read as it was written. -/
theorem readUInt32BE_of_prefix {bytes a : Bytes} {n offset : ℕ}
    (hstart : a ++ uint32BE n <+: bytes) (hoffset : a.length = offset) (hn : n < 2 ^ 32) :
    readUInt32BE bytes offset = some n := by
  obtain ⟨t, rfl⟩ := hstart
  subst hoffset
  have byte {m : ℕ} (h : m < 256) : (UInt8.ofNat m).toNat = m := UInt8.toNat_ofNat_of_lt' h
  simp only [readUInt32BE, List.append_assoc, List.drop_left, uint32BE, List.cons_append,
    ofUInt32BE]
  rw [byte (by omega), byte (by omega), byte (by omega), byte (by omega)]
  congr 1
  omega

/-! ## Putting together what is read -/

theorem length_subarray {bytes : Bytes} {first last : ℕ} (hlast : last ≤ bytes.length) :
    (bytes.subarray first last).length = last - first := by
  rw [subarray, List.length_drop, List.length_take, Nat.min_eq_left hlast]

/-- A subarray goes on where the bytes before it end. -/
theorem take_append_subarray (bytes : Bytes) {first last : ℕ} (h : first ≤ last) :
    bytes.take first ++ bytes.subarray first last = bytes.take last := by
  have hsplit := List.take_append_drop first (bytes.take last)
  rwa [List.take_take, Nat.min_eq_left h] at hsplit

theorem take_one_of_readUInt8 {bytes : Bytes} {n : ℕ} (h : bytes.readUInt8 0 = some n) :
    n < 256 ∧ [UInt8.ofNat n] = bytes.take 1 := by
  rcases bytes with _ | ⟨b, bytes⟩
  · cases h
  · obtain rfl : b.toNat = n := by simpa [readUInt8] using h
    exact ⟨b.toNat_lt, by simp⟩

/-- What is read as a number are its bytes. -/
theorem subarray_of_readUInt32BE {bytes : Bytes} {n offset : ℕ}
    (h : bytes.readUInt32BE offset = some n) :
    n < 2 ^ 32 ∧ offset + 4 ≤ bytes.length ∧ uint32BE n = bytes.subarray offset (offset + 4) := by
  unfold readUInt32BE at h
  split at h
  · next b₀ b₁ b₂ b₃ t ht =>
    obtain rfl := Option.some.inj h
    obtain ⟨hn, hbytes⟩ := uint32BE_ofUInt32BE b₀ b₁ b₂ b₃
    have hlength := congrArg List.length ht
    simp only [List.length_drop, List.length_cons] at hlength
    refine ⟨hn, by omega, ?_⟩
    rw [hbytes, subarray, List.drop_take, ht, Nat.add_sub_cancel_left]
    rfl
  · cases h

end Bytes

end RatelPlatform
