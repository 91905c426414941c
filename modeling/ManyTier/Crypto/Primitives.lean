import ManyTier.Lib.Bytes

/-! Cryptographic primitives, key agreement and signatures.

Ciphers, hashes, curves and the block compressor come from third-party crates and
are a parameter of the development: a `Primitives` says what each call returns and
nothing about why. What is under the repository's own control around them is
defined here and in the modules that import this one: which bytes are hashed,
signed or compared, and which part of a result is kept. -/
namespace ManyTier

/-- The functions the code takes from other crates. -/
structure Primitives where
  /-- Byte `i` of the keystream under a key and a nonce: Salsa20/12 for packets,
  the 20-round cipher for the address hash. -/
  salsa12 : ByteVec 32 → ByteVec 8 → Nat → UInt8
  salsa20 : ByteVec 32 → ByteVec 8 → Nat → UInt8
  /-- The Poly1305 tag of a message under a one-time key. -/
  poly1305 : ByteVec 32 → Bytes → ByteVec 16
  /-- AES-256 on one block, and its inverse. -/
  aesEncrypt : ByteVec 32 → ByteVec 16 → ByteVec 16
  aesDecrypt : ByteVec 32 → ByteVec 16 → ByteVec 16
  /-- GHASH of a block sequence under a hash key. -/
  ghash : ByteVec 16 → List (ByteVec 16) → ByteVec 16
  /-- X25519: the shared point of our secret and their public key, and the public
  key of a secret. -/
  x25519 : ByteVec 32 → ByteVec 32 → ByteVec 32
  x25519Public : ByteVec 32 → ByteVec 32
  sha512 : Bytes → ByteVec 64
  hmacSha384 : ByteVec 48 → Bytes → ByteVec 48
  /-- Ed25519: the public key of a signing key, whether bytes are a public key,
  the signature of a message, and whether a signature is one. -/
  ed25519Public : ByteVec 32 → ByteVec 32
  ed25519Point : ByteVec 32 → Bool
  ed25519Sign : ByteVec 32 → Bytes → ByteVec 64
  ed25519Verify : ByteVec 32 → Bytes → ByteVec 64 → Bool
  /-- LZ4 blocks: compression, and decompression into a buffer of a given size. -/
  lz4Compress : Bytes → Bytes
  lz4Decompress : Bytes → Nat → Option Bytes

inductive CryptoError where
  | invalidFormat
  | unsupportedIdentityType
  | invalidKeyLength
  | invalidAddress
  | powFailed
  | macVerificationFailed
  | encryptionError
  | signatureError
  | keyAgreementError
  | tooShort
  deriving Repr, DecidableEq

/-- A shared secret: 48 bytes. -/
abbrev Secret := ByteVec 48

namespace KeyAgreement
variable (pr : Primitives)

/-- The first 48 bytes of the hash of the X25519 result. -/
def keyAgree (ourSecret theirPublic : ByteVec 32) : Secret :=
  ByteVec.ofBytes 48 (pr.sha512 (pr.x25519 ourSecret theirPublic).toBytes).toBytes

/-- Two parties agree on one secret. -/
def Commutes (pr : Primitives) : Prop :=
  ∀ s t, keyAgree pr s (pr.x25519Public t) = keyAgree pr t (pr.x25519Public s)

end KeyAgreement

namespace Kbkdf
variable (pr : Primitives)

/-- The fixed message of the derivation; only the label differs between the keys. -/
def message (label : UInt8) : Bytes :=
  [0x00, 0x00, 0x00, 0x00, 0x5a, 0x54, label, 0x00, 0x00, 0x00, 0x00, 0x01, 0x80]

def deriveK0 (sharedSecret : Secret) : ByteVec 48 := pr.hmacSha384 sharedSecret (message 0x30)
def deriveK1 (sharedSecret : Secret) : ByteVec 48 := pr.hmacSha384 sharedSecret (message 0x31)

end Kbkdf

namespace Signing
variable (pr : Primitives)

/-- The first half of the message's hash: what is signed and what is appended. -/
def digest (message : Bytes) : ByteVec 32 := ByteVec.ofBytes 32 (pr.sha512 message).toBytes

/-- A 96-byte signature: Ed25519 over the digest, then the digest. -/
def sign (signingKey : ByteVec 32) (message : Bytes) : ByteVec 96 :=
  ByteVec.ofBytes 96
    ((pr.ed25519Sign signingKey (digest pr message).toBytes).toBytes ++ (digest pr message).toBytes)

def verify (verifyingKey : ByteVec 32) (message : Bytes) (signature : ByteVec 96) :
    Except CryptoError Unit :=
  if fieldAt 32 signature.toBytes 64 ≠ digest pr message then .error .signatureError
  else if pr.ed25519Verify verifyingKey (digest pr message).toBytes (fieldAt 64 signature.toBytes 0)
    then .ok ()
  else .error .signatureError

/-- Ed25519 accepts what it signed. -/
def VerifiesOwn (pr : Primitives) : Prop :=
  ∀ signingKey message,
    pr.ed25519Verify (pr.ed25519Public signingKey) message (pr.ed25519Sign signingKey message) = true

theorem verify_sign {pr : Primitives} (h : VerifiesOwn pr) (signingKey : ByteVec 32) (message : Bytes) :
    verify pr (pr.ed25519Public signingKey) message (sign pr signingKey message) = .ok () := by
  have hbytes : (sign pr signingKey message).toBytes =
      (pr.ed25519Sign signingKey (digest pr message).toBytes).toBytes ++
        (digest pr message).toBytes := by
    rw [sign, ByteVec.toBytes_ofBytes 96 _ (by simp)]
    exact List.take_of_length_le (by simp)
  have hdigest : fieldAt 32 (sign pr signingKey message).toBytes 64 = digest pr message := by
    rw [hbytes]
    simpa using fieldAt_append _ (digest pr message) [] 64 (by simp)
  have hsig : fieldAt 64 (sign pr signingKey message).toBytes 0 =
      pr.ed25519Sign signingKey (digest pr message).toBytes := by
    rw [hbytes]
    exact fieldAt_append [] _ (digest pr message).toBytes 0 rfl
  have hown := h signingKey (digest pr message).toBytes
  simp [verify, hdigest, hsig, hown]

end Signing

end ManyTier
