import FiveProtect.Lib.Text

/-!
# Backend: sealing the pending nonce

`services/backend/src/crypto/seal.ts`: `iv || tag || ciphertext` under AES-256-GCM.  The cipher is
`Aes256Gcm`, a parameter; what the code relies on is `Aes256Gcm.Lawful`.  `sealNonce` and
`openNonce` are `seal` and `open` of the source, `openNonce_sealNonce` and `openNonce_other` what
follows for them.
-/

namespace Backend

/-- a key of the right size: `sealKey` throws on any other -/
structure SealKey where
  bytes : List UInt8
  len : bytes.length = 32
  deriving DecidableEq

/-- `randomBytes(IV_BYTES)` -/
structure SealIv where
  bytes : List UInt8
  len : bytes.length = 12
  deriving DecidableEq

/-- `createCipheriv('aes-256-gcm', ..)`: tag and ciphertext, and back -/
structure Aes256Gcm where
  encrypt : SealKey → List UInt8 → String → List UInt8 × List UInt8
  decrypt : SealKey → List UInt8 → List UInt8 → List UInt8 → Option String

/-- 16 bytes of tag, a ciphertext for every text, decryption under the same key and a failed tag
under any other -/
structure Aes256Gcm.Lawful (A : Aes256Gcm) : Prop where
  tag_length : ∀ k iv p, (A.encrypt k iv p).1.length = 16
  body_ne_nil : ∀ k iv p, p ≠ "" → (A.encrypt k iv p).2 ≠ []
  decrypt_encrypt : ∀ k iv p, A.decrypt k iv (A.encrypt k iv p).1 (A.encrypt k iv p).2 = some p
  decrypt_other : ∀ k k' iv p, k ≠ k' →
    A.decrypt k' iv (A.encrypt k iv p).1 (A.encrypt k iv p).2 = none

def ivBytes : Nat := 12
def tagBytes : Nat := 16

def sealNonce (A : Aes256Gcm) (key : SealKey) (iv : SealIv) (plaintext : String) : List UInt8 :=
  iv.bytes ++ (A.encrypt key iv.bytes plaintext).1 ++ (A.encrypt key iv.bytes plaintext).2

def openNonce (A : Aes256Gcm) (key : SealKey) (sealed : List UInt8) : Option String :=
  if sealed.length ≤ ivBytes + tagBytes then none
  else A.decrypt key (sealed.take ivBytes) ((sealed.drop ivBytes).take tagBytes)
    (sealed.drop (ivBytes + tagBytes))

variable {A : Aes256Gcm}

/-- the layout: what `openNonce` cuts out of a sealed text is what `sealNonce` put together -/
theorem openNonce_layout (hA : A.Lawful) (key key' : SealKey) (iv : SealIv) {p : String}
    (hp : p ≠ "") : openNonce A key' (sealNonce A key iv p) =
      A.decrypt key' iv.bytes (A.encrypt key iv.bytes p).1 (A.encrypt key iv.bytes p).2 := by
  have htag := hA.tag_length key iv.bytes p
  have hbody := List.length_pos_iff.mpr (hA.body_ne_nil key iv.bytes p hp)
  have hiv := iv.len
  have hlen : ¬ (sealNonce A key iv p).length ≤ ivBytes + tagBytes := by
    simp only [sealNonce, List.length_append, ivBytes, tagBytes]
    omega
  rw [openNonce, if_neg hlen]
  congr 1
  · rw [sealNonce, List.append_assoc, ← show iv.bytes.length = ivBytes from hiv, List.take_left]
  · rw [sealNonce, List.append_assoc, ← show iv.bytes.length = ivBytes from hiv, List.drop_left,
      ← show _ = tagBytes from htag, List.take_left]
  · rw [sealNonce, ← show (iv.bytes ++ (A.encrypt key iv.bytes p).1).length = ivBytes + tagBytes by
      rw [List.length_append, hiv, htag]; rfl, List.drop_left]

/-- `open` undoes `seal` under the same key -/
theorem openNonce_sealNonce (hA : A.Lawful) (key : SealKey) (iv : SealIv) {p : String} (hp : p ≠ "") :
    openNonce A key (sealNonce A key iv p) = some p := by
  rw [openNonce_layout hA key key iv hp, hA.decrypt_encrypt]

/-- `open` returns null under any other key -/
theorem openNonce_other (hA : A.Lawful) {key key' : SealKey} (iv : SealIv) {p : String}
    (hp : p ≠ "") (h : key ≠ key') : openNonce A key' (sealNonce A key iv p) = none := by
  rw [openNonce_layout hA key key' iv hp, hA.decrypt_other key key' iv.bytes p h]

end Backend
