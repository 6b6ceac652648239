import RatelPlatform.Buffers
import RatelPlatform.ByteTexts
import RatelPlatform.EncryptedPayslips

/-!
# The format of encrypted envelopes

A column that is encrypted holds an envelope in one buffer: the length of the key version in
one byte, the key version, the IV and the tag of the wrapped key, its length in four bytes, the
wrapped key, the IV and the tag of the ciphertext, and the ciphertext up to the end.

`packEnvelope` and `unpackEnvelope` follow this layout by running offsets. They are inverse to
each other on all envelopes whose parts have their sizes and on all buffers in which every field
has its place (`envelope_round_trips`).
-/

namespace RatelPlatform

/-- `EncryptedEnvelope`; the key version is a text without lone surrogates. -/
structure EncryptedEnvelope where
  keyVersion : List Char
  wrappedDek : Bytes
  dekIv : Bytes
  dekAuthTag : Bytes
  ciphertext : Bytes
  ciphertextIv : Bytes
  ciphertextAuthTag : Bytes
  deriving DecidableEq

/-- `packEnvelope` -/
def packEnvelope (e : EncryptedEnvelope) : Option Bytes := do
  let keyVersionBuf : Bytes := utf8Encode e.keyVersion
  let header := Bytes.alloc (1 + keyVersionBuf.length + 12 + 16 + 4)
  let offset := 0
  let header ← header.writeUInt8 keyVersionBuf.length offset
  let offset := offset + 1
  let header := keyVersionBuf.copy header offset
  let offset := offset + keyVersionBuf.length
  let header := e.dekIv.copy header offset
  let offset := offset + 12
  let header := e.dekAuthTag.copy header offset
  let offset := offset + 16
  let header ← header.writeUInt32BE e.wrappedDek.length offset
  pure (header ++ e.wrappedDek ++ e.ciphertextIv ++ e.ciphertextAuthTag ++ e.ciphertext)

/-- `unpackEnvelope` -/
def unpackEnvelope (blob : Bytes) : Option EncryptedEnvelope := do
  let offset := 0
  let keyVersionLen ← blob.readUInt8 offset
  let offset := offset + 1
  let keyVersion := utf8Decode (blob.subarray offset (offset + keyVersionLen))
  let offset := offset + keyVersionLen
  let dekIv := blob.subarray offset (offset + 12)
  let offset := offset + 12
  let dekAuthTag := blob.subarray offset (offset + 16)
  let offset := offset + 16
  let wrappedDekLen ← blob.readUInt32BE offset
  let offset := offset + 4
  let wrappedDek := blob.subarray offset (offset + wrappedDekLen)
  let offset := offset + wrappedDekLen
  let ciphertextIv := blob.subarray offset (offset + 12)
  let offset := offset + 12
  let ciphertextAuthTag := blob.subarray offset (offset + 16)
  let offset := offset + 16
  let ciphertext := blob.subarray offset blob.length
  pure { keyVersion, wrappedDek, dekIv, dekAuthTag, ciphertext, ciphertextIv, ciphertextAuthTag }

/-! ## The layout -/

namespace EncryptedEnvelope

/-- The parts have the sizes that the format has room for. -/
structure FitsFormat (e : EncryptedEnvelope) : Prop where
  keyVersion : (utf8Encode e.keyVersion).length < 256
  dekIv : e.dekIv.length = 12
  dekAuthTag : e.dekAuthTag.length = 16
  wrappedDek : e.wrappedDek.length < 2 ^ 32
  ciphertextIv : e.ciphertextIv.length = 12
  ciphertextAuthTag : e.ciphertextAuthTag.length = 16

/-- The bytes up to the length of the wrapped key. -/
def keyFields (e : EncryptedEnvelope) : Bytes :=
  [.ofNat (utf8Encode e.keyVersion).length] ++ utf8Encode e.keyVersion ++ e.dekIv ++ e.dekAuthTag

/-- The bytes up to the ciphertext. -/
def layout (e : EncryptedEnvelope) : Bytes :=
  e.keyFields ++ Bytes.uint32BE e.wrappedDek.length ++ e.wrappedDek ++ e.ciphertextIv ++
    e.ciphertextAuthTag ++ e.ciphertext

variable {e : EncryptedEnvelope}

/-- **Packing** writes the layout: each field is copied behind the ones before it. -/
theorem FitsFormat.pack (h : e.FitsFormat) : packEnvelope e = some e.layout := by
  have hkeyVersion : (utf8Encode e.keyVersion).length < 2 ^ 8 := h.keyVersion
  have hiv := h.dekIv
  have htag := h.dekAuthTag
  simp only [packEnvelope]
  rw [← List.nil_append (Bytes.alloc _),
    Bytes.writeUInt8_alloc (a := []) List.length_nil hkeyVersion (by omega)]
  simp only [Option.bind_eq_bind, Option.bind_some]
  rw [Bytes.copy_alloc (by simp) (by omega), Bytes.copy_alloc (by simp; omega) (by omega),
    Bytes.copy_alloc (by simp; omega) (by omega),
    Bytes.writeUInt32BE_alloc (by simp; omega) h.wrappedDek (by omega)]
  -- the header is full
  have hfull : 1 + (utf8Encode e.keyVersion).length + 12 + 16 + 4 - 1 -
      (utf8Encode e.keyVersion).length - e.dekIv.length - e.dekAuthTag.length - 4 = 0 := by
    omega
  simp only [hfull, Option.bind_some]
  simp [layout, keyFields, Bytes.alloc]

/-- **Unpacking** reads each field behind the ones before it. -/
theorem FitsFormat.unpack (h : e.FitsFormat) : unpackEnvelope e.layout = some e := by
  have hiv := h.dekIv
  have htag := h.dekAuthTag
  have hciv := h.ciphertextIv
  have hctag := h.ciphertextAuthTag
  -- the offsets of the fields, as they add up
  let keyVersionEnd := 0 + 1 + (utf8Encode e.keyVersion).length
  have hkeyFields : e.keyFields.length = keyVersionEnd + 12 + 16 := by
    simp [keyFields, keyVersionEnd, hiv, htag]
    omega
  have hkeyVersionLen : e.layout.readUInt8 0 = some (utf8Encode e.keyVersion).length := by
    simpa [layout, keyFields, Bytes.readUInt8] using UInt8.toNat_ofNat_of_lt' h.keyVersion
  have hkeyVersion : e.layout.subarray (0 + 1) keyVersionEnd = utf8Encode e.keyVersion :=
    Bytes.subarray_of_prefix (a := [.ofNat (utf8Encode e.keyVersion).length])
      (by simp [layout, keyFields]) rfl rfl
  have hdekIv : e.layout.subarray keyVersionEnd (keyVersionEnd + 12) = e.dekIv :=
    Bytes.subarray_of_prefix
      (a := [.ofNat (utf8Encode e.keyVersion).length] ++ utf8Encode e.keyVersion)
      (by simp [layout, keyFields]) (by simp [keyVersionEnd]; omega) (by rw [hiv])
  have hdekAuthTag : e.layout.subarray (keyVersionEnd + 12) (keyVersionEnd + 12 + 16) =
      e.dekAuthTag :=
    Bytes.subarray_of_prefix
      (a := [.ofNat (utf8Encode e.keyVersion).length] ++ utf8Encode e.keyVersion ++ e.dekIv)
      (by simp [layout, keyFields]) (by simp [keyVersionEnd, hiv]; omega) (by rw [htag])
  have hwrappedDekLen : e.layout.readUInt32BE (keyVersionEnd + 12 + 16) =
      some e.wrappedDek.length :=
    Bytes.readUInt32BE_of_prefix (a := e.keyFields) (by simp [layout]) hkeyFields h.wrappedDek
  let wrappedDekEnd := keyVersionEnd + 12 + 16 + 4 + e.wrappedDek.length
  have hwrappedDek : e.layout.subarray (keyVersionEnd + 12 + 16 + 4) wrappedDekEnd =
      e.wrappedDek :=
    Bytes.subarray_of_prefix (a := e.keyFields ++ Bytes.uint32BE e.wrappedDek.length)
      (by simp [layout]) (by simp [hkeyFields]) rfl
  have hciphertextIv : e.layout.subarray wrappedDekEnd (wrappedDekEnd + 12) = e.ciphertextIv :=
    Bytes.subarray_of_prefix
      (a := e.keyFields ++ Bytes.uint32BE e.wrappedDek.length ++ e.wrappedDek)
      (by simp [layout]) (by simp [wrappedDekEnd, hkeyFields]; omega) (by rw [hciv])
  have hciphertextAuthTag : e.layout.subarray (wrappedDekEnd + 12) (wrappedDekEnd + 12 + 16) =
      e.ciphertextAuthTag :=
    Bytes.subarray_of_prefix
      (a := e.keyFields ++ Bytes.uint32BE e.wrappedDek.length ++ e.wrappedDek ++ e.ciphertextIv)
      (by simp [layout]) (by simp [wrappedDekEnd, hkeyFields, hciv]; omega) (by rw [hctag])
  have hciphertext : e.layout.subarray (wrappedDekEnd + 12 + 16) e.layout.length =
      e.ciphertext :=
    Bytes.subarray_of_prefix
      (a := e.keyFields ++ Bytes.uint32BE e.wrappedDek.length ++ e.wrappedDek ++
        e.ciphertextIv ++ e.ciphertextAuthTag)
      (by simp [layout]) (by simp [wrappedDekEnd, hkeyFields, hciv, hctag]; omega)
      (by simp [layout, wrappedDekEnd, hkeyFields, hciv, hctag]; omega)
  simp only [keyVersionEnd, wrappedDekEnd] at *
  simp only [unpackEnvelope, hkeyVersionLen, Option.bind_eq_bind, Option.bind_some, hkeyVersion,
    hdekIv, hdekAuthTag, hwrappedDekLen, hwrappedDek, hciphertextIv, hciphertextAuthTag,
    hciphertext, utf8Decode_utf8Encode]
  rfl

end EncryptedEnvelope

/-! ## Buffers with the layout -/

/-- The bytes are those of some text. -/
def ValidUtf8 (bytes : Bytes) : Prop := ∃ text, utf8Encode text = bytes

/-- Every field that `unpackEnvelope` reads lies within the buffer: a key version and a wrapped
key of the lengths it says, and what has a fixed length. -/
structure FieldsInBounds (blob : Bytes) (keyVersionLen wrappedDekLen : ℕ) : Prop where
  readsKeyVersionLen : blob.readUInt8 0 = some keyVersionLen
  readsWrappedDekLen : blob.readUInt32BE (1 + keyVersionLen + 12 + 16) = some wrappedDekLen
  reachesCiphertext : 1 + keyVersionLen + 12 + 16 + 4 + wrappedDekLen + 12 + 16 ≤ blob.length

/-- **A buffer in which every field has its place** is the layout of an envelope. -/
theorem FieldsInBounds.exists_layout {blob : Bytes} {keyVersionLen wrappedDekLen : ℕ}
    (h : FieldsInBounds blob keyVersionLen wrappedDekLen)
    (hutf8 : ValidUtf8 (blob.subarray 1 (1 + keyVersionLen))) :
    ∃ e : EncryptedEnvelope, e.FitsFormat ∧ e.layout = blob := by
  obtain ⟨keyVersion, hkeyVersion⟩ := hutf8
  obtain ⟨hk, hfirst⟩ := Bytes.take_one_of_readUInt8 h.readsKeyVersionLen
  obtain ⟨hw, -, hlen⟩ := Bytes.subarray_of_readUInt32BE h.readsWrappedDekLen
  have hlength := h.reachesCiphertext
  let wrappedDekStart := 1 + keyVersionLen + 12 + 16 + 4
  let e : EncryptedEnvelope :=
    { keyVersion
      dekIv := blob.subarray (1 + keyVersionLen) (1 + keyVersionLen + 12)
      dekAuthTag := blob.subarray (1 + keyVersionLen + 12) (1 + keyVersionLen + 12 + 16)
      wrappedDek := blob.subarray wrappedDekStart (wrappedDekStart + wrappedDekLen)
      ciphertextIv := blob.subarray (wrappedDekStart + wrappedDekLen)
        (wrappedDekStart + wrappedDekLen + 12)
      ciphertextAuthTag := blob.subarray (wrappedDekStart + wrappedDekLen + 12)
        (wrappedDekStart + wrappedDekLen + 12 + 16)
      ciphertext := blob.subarray (wrappedDekStart + wrappedDekLen + 12 + 16) blob.length }
  have hkeyVersionLen : (utf8Encode keyVersion).length = keyVersionLen := by
    rw [hkeyVersion, Bytes.length_subarray (by omega)]
    omega
  have hwrappedDekLen : e.wrappedDek.length = wrappedDekLen := by
    rw [Bytes.length_subarray (by omega)]
    omega
  refine ⟨e, ⟨?_, ?_, ?_, ?_, ?_, ?_⟩, ?_⟩
  · exact lt_of_eq_of_lt hkeyVersionLen hk
  · exact (Bytes.length_subarray (by omega)).trans (by omega)
  · exact (Bytes.length_subarray (by omega)).trans (by omega)
  · exact lt_of_eq_of_lt hwrappedDekLen hw
  · exact (Bytes.length_subarray (by omega)).trans (by omega)
  · exact (Bytes.length_subarray (by omega)).trans (by omega)
  · have hkeyFields : e.keyFields = blob.take (1 + keyVersionLen + 12 + 16) := by
      rw [EncryptedEnvelope.keyFields, hkeyVersionLen, hfirst, hkeyVersion,
        Bytes.take_append_subarray _ (by omega), Bytes.take_append_subarray _ (by omega),
        Bytes.take_append_subarray _ (by omega)]
    rw [EncryptedEnvelope.layout, hkeyFields, hwrappedDekLen, hlen]
    -- each field goes on where the one before it ends
    rw [Bytes.take_append_subarray _ (by omega), Bytes.take_append_subarray _ (by omega),
      Bytes.take_append_subarray _ (by omega), Bytes.take_append_subarray _ (by omega),
      Bytes.take_append_subarray _ (by omega), List.take_length]

/-- **Packing and unpacking are inverse to each other**, whatever the lengths of the key version,
the wrapped key and the ciphertext. -/
theorem envelope_round_trips :
    (∀ e : EncryptedEnvelope, e.FitsFormat → (packEnvelope e).bind unpackEnvelope = some e) ∧
      ∀ (blob : Bytes) (keyVersionLen wrappedDekLen : ℕ),
        FieldsInBounds blob keyVersionLen wrappedDekLen →
        ValidUtf8 (blob.subarray 1 (1 + keyVersionLen)) →
          (unpackEnvelope blob).bind packEnvelope = some blob := by
  refine ⟨?_, ?_⟩
  · intro e he
    rw [he.pack, Option.bind_some, he.unpack]
  · intro blob keyVersionLen wrappedDekLen hbounds hutf8
    obtain ⟨e, he, rfl⟩ := hbounds.exists_layout hutf8
    rw [he.unpack, Option.bind_some, he.pack]

namespace Sample

/-- An envelope of three bytes, under a key version of two characters in three bytes. -/
def shortEnvelope : EncryptedEnvelope where
  keyVersion := ['v', '²']
  wrappedDek := List.replicate 32 7
  dekIv := List.replicate 12 1
  dekAuthTag := List.replicate 16 2
  ciphertext := [200, 0, 17]
  ciphertextIv := List.replicate 12 3
  ciphertextAuthTag := List.replicate 16 4

theorem shortEnvelope_fits : shortEnvelope.FitsFormat where
  keyVersion := by decide
  dekIv := by decide
  dekAuthTag := by decide
  wrappedDek := by decide
  ciphertextIv := by decide
  ciphertextAuthTag := by decide

end Sample

theorem envelope_round_trips_short :
    (packEnvelope Sample.shortEnvelope).bind unpackEnvelope = some Sample.shortEnvelope ∧
      (unpackEnvelope Sample.shortEnvelope.layout).bind packEnvelope =
        some Sample.shortEnvelope.layout := by
  refine ⟨envelope_round_trips.1 _ Sample.shortEnvelope_fits, ?_⟩
  exact envelope_round_trips.2 _ 3 32 ⟨by decide, by decide, by decide⟩ ⟨['v', '²'], by decide⟩

/-! ## Encryption -/

/-- `CURRENT_KEY_VERSION` -/
def CURRENT_KEY_VERSION : List Char := ['v', '1']

/-- `aes-256-gcm`: the ciphertext has the length of the plaintext and the tag has 16 bytes, and
with the key and the IV they give the plaintext back. -/
structure AesGcm where
  /-- the ciphertext and its tag -/
  encrypt : (key iv plaintext : Bytes) → Bytes × Bytes
  /-- nothing when the tag does not authenticate -/
  decrypt : (key iv authTag ciphertext : Bytes) → Option Bytes
  length_ciphertext : ∀ key iv plaintext, (encrypt key iv plaintext).1.length = plaintext.length
  length_authTag : ∀ key iv plaintext, (encrypt key iv plaintext).2.length = 16
  decrypt_encrypt : ∀ key iv plaintext,
    decrypt key iv (encrypt key iv plaintext).2 (encrypt key iv plaintext).1 = some plaintext

/-- What `encryptEnvelope` draws. -/
structure RandomBytes where
  dek : Bytes
  ciphertextIv : Bytes
  dekIv : Bytes
  length_dek : dek.length = 32
  length_ciphertextIv : ciphertextIv.length = 12
  length_dekIv : dekIv.length = 12

section

variable (aes : AesGcm) (kek : Bytes)

/-- `encryptEnvelope` -/
def encryptEnvelope (random : RandomBytes) (plaintext : Bytes) : EncryptedEnvelope :=
  let (ciphertext, ciphertextAuthTag) := aes.encrypt random.dek random.ciphertextIv plaintext
  let (wrappedDek, dekAuthTag) := aes.encrypt kek random.dekIv random.dek
  { keyVersion := CURRENT_KEY_VERSION
    wrappedDek
    dekIv := random.dekIv
    dekAuthTag
    ciphertext
    ciphertextIv := random.ciphertextIv
    ciphertextAuthTag }

/-- `decryptEnvelope` -/
def decryptEnvelope (envelope : EncryptedEnvelope) : Option Bytes := do
  let dek ← aes.decrypt kek envelope.dekIv envelope.dekAuthTag envelope.wrappedDek
  aes.decrypt dek envelope.ciphertextIv envelope.ciphertextAuthTag envelope.ciphertext

/-- What is encrypted can be packed. -/
theorem encryptEnvelope_fits (random : RandomBytes) (plaintext : Bytes) :
    (encryptEnvelope aes kek random plaintext).FitsFormat where
  keyVersion := show (utf8Encode CURRENT_KEY_VERSION).length < 256 by decide
  dekIv := random.length_dekIv
  dekAuthTag := aes.length_authTag ..
  wrappedDek := by
    have hlength : (encryptEnvelope aes kek random plaintext).wrappedDek.length = 32 :=
      (aes.length_ciphertext ..).trans random.length_dek
    omega
  ciphertextIv := random.length_ciphertextIv
  ciphertextAuthTag := aes.length_authTag ..

/-- **What is encrypted can be decrypted**: the key of the envelope is unwrapped first. -/
theorem decrypt_encryptEnvelope (random : RandomBytes) (plaintext : Bytes) :
    decryptEnvelope aes kek (encryptEnvelope aes kek random plaintext) = some plaintext := by
  simp only [decryptEnvelope, encryptEnvelope, aes.decrypt_encrypt, Option.bind_eq_bind,
    Option.bind_some]

/-! ## What is stored -/

variable {α : Type} (stringify : α → Bytes) (parse : Bytes → Option α)

/-- `encryptJson`; such an envelope can be packed. -/
def encryptJson (random : RandomBytes) (value : α) : Bytes :=
  (packEnvelope (encryptEnvelope aes kek random (stringify value))).getD []

/-- `decryptJson` -/
def decryptJson (blob : Bytes) : Option α := do
  let envelope ← unpackEnvelope blob
  let plaintext ← decryptEnvelope aes kek envelope
  parse plaintext

theorem decryptJson_encryptJson (hparse : ∀ value, parse (stringify value) = some value)
    (random : RandomBytes) (value : α) :
    decryptJson aes kek parse (encryptJson aes kek stringify random value) = some value := by
  have hfits := encryptEnvelope_fits aes kek random (stringify value)
  simp only [encryptJson, hfits.pack, Option.getD_some, decryptJson, hfits.unpack,
    Option.bind_eq_bind, Option.bind_some, decrypt_encryptEnvelope, hparse]

/-- `AesGcmEnvelopeEncryptionService`, for values that JSON can hold. -/
def aesGcmEnvelopeEncryptionService (randomBytes : ℕ → RandomBytes)
    (hparse : ∀ value, parse (stringify value) = some value) : EncryptionService α where
  Buffer := Bytes
  encryptJson random := encryptJson aes kek stringify (randomBytes random)
  decryptJson := decryptJson aes kek parse
  decrypt_encrypt random :=
    decryptJson_encryptJson aes kek stringify parse hparse (randomBytes random)

end

namespace Sample

/-- A sum of bytes, without carry. -/
def checksum (bytes : Bytes) : UInt8 := bytes.foldl (· ^^^ ·) 0

/-- A cipher that hides little, with the lengths of `aes-256-gcm`: the checksum of key and IV is
added to each byte, and the tag repeats that of the plaintext. -/
def checksumCipher : AesGcm where
  encrypt key iv plaintext :=
    (plaintext.map (· ^^^ checksum (key ++ iv)), List.replicate 16 (checksum plaintext))
  decrypt key iv authTag ciphertext :=
    let plaintext := ciphertext.map (· ^^^ checksum (key ++ iv))
    if authTag = List.replicate 16 (checksum plaintext) then some plaintext else none
  length_ciphertext _ _ _ := List.length_map _
  length_authTag _ _ _ := List.length_replicate
  decrypt_encrypt key iv plaintext := by
    have hback : (plaintext.map (· ^^^ checksum (key ++ iv))).map (· ^^^ checksum (key ++ iv)) =
        plaintext := by
      rw [List.map_map]
      refine List.map_id'' (fun byte => ?_) plaintext
      rw [Function.comp_apply, UInt8.xor_assoc, UInt8.xor_self, UInt8.xor_zero]
    simp only [hback, if_true]

/-- The same bytes are drawn every time. -/
def drawnBytes : RandomBytes where
  dek := List.replicate 32 5
  ciphertextIv := List.replicate 12 6
  dekIv := List.replicate 12 7
  length_dek := rfl
  length_ciphertextIv := rfl
  length_dekIv := rfl

/-- Bytes are stored as they are, under a key of 32 bytes. -/
def bytesEncryption : EncryptionService Bytes :=
  aesGcmEnvelopeEncryptionService checksumCipher (List.replicate 32 9) id some
    (fun _ => drawnBytes) fun _ => rfl

/-- The last byte is changed, and nothing is read. -/
example : bytesEncryption.decryptJson
    ((bytesEncryption.encryptJson 0 [1, 2, 3] : Bytes).dropLast ++ [0]) = none := by
  decide +kernel

end Sample

end RatelPlatform
