import ManyTier.Crypto.Identity
import ManyTier.Crypto.Primitives

/-! Small primitives for worked examples.

They have the laws the real ones are used for (two parties agree on a key, a stream is
its own inverse, a signature verifies, a block decompresses to what was compressed),
they depend on every byte they are given, and they evaluate quickly. They hide nothing. -/
namespace ManyTier.Sample

/-- A number that depends on every byte and its place. -/
def checksum (b : Bytes) : Nat := b.foldl (fun acc x => (acc * 257 + x.toNat + 1) % 65521) 7

/-- `n` bytes spread from a seed and the front of a string. -/
def spread (n seed : Nat) (b : Bytes) : ByteVec n :=
  ⟨(List.range n).map fun i => UInt8.ofNat (seed * (i + 1) + (byteAt b i).toNat), by simp⟩

def streamByte (key : ByteVec 32) (nonce : ByteVec 8) (i : Nat) : UInt8 :=
  UInt8.ofNat ((byteAt key.toBytes (i % 32)).toNat * 3 + (byteAt nonce.toBytes (i % 8)).toNat * 5 + i)

def xorVec {n : Nat} (a b : ByteVec n) : ByteVec n :=
  ⟨List.zipWith (· ^^^ ·) a.toBytes b.toBytes, by simp⟩

/-- A signature is the key and the message, side by side. -/
def signature (signingKey : ByteVec 32) (message : Bytes) : ByteVec 64 :=
  ⟨signingKey.toBytes ++ (fieldAt 32 message 0).toBytes, by simp⟩

/-- A block of literals only: each byte behind a token. -/
def lz4Compress (data : Bytes) : Bytes := data.flatMap fun b => [0x10, b]

def literals : Bytes → Option Bytes
  | [] => some []
  | token :: b :: rest => if token = 0x10 then (literals rest).map (b :: ·) else none
  | [_] => none

def lz4Decompress (data : Bytes) (capacity : Nat) : Option Bytes :=
  (literals data).filter fun out => out.length ≤ capacity

def primitives : Primitives where
  salsa12 := streamByte
  salsa20 := streamByte
  poly1305 := fun key message => spread 16 (checksum (key.toBytes ++ message)) key.toBytes
  aesEncrypt := fun key block => xorVec block (ByteVec.ofBytes 16 key.toBytes)
  aesDecrypt := fun key block => xorVec block (ByteVec.ofBytes 16 key.toBytes)
  ghash := fun key blocks => spread 16 (checksum (blocks.flatMap ByteVec.toBytes)) key.toBytes
  x25519 := xorVec
  x25519Public := id
  sha512 := fun message => spread 64 (checksum message) message
  hmacSha384 := fun key message => spread 48 (checksum message) key.toBytes
  ed25519Public := id
  ed25519Point := fun _ => true
  ed25519Sign := signature
  ed25519Verify := fun key message sig => sig = signature key message
  lz4Compress := lz4Compress
  lz4Decompress := lz4Decompress

def key (k : UInt8) : ByteVec 32 := ⟨List.replicate 32 k, by simp⟩

/-- The identity of a party with number `k`; its public keys are its secret keys. -/
def identity (k : UInt8) : Identity where
  address := ⟨⟨[0x0a, 0x00, 0x00, 0x00, k], rfl⟩, by simp [ByteVec.toBytes], by simp [ByteVec.toBytes]⟩
  publicKey := ⟨key k, key k⟩
  secret := some ⟨key k, key k⟩

theorem literals_lz4Compress (data : Bytes) : literals (lz4Compress data) = some data := by
  induction data with
  | nil => rfl
  | cons b rest ih =>
    show (literals (lz4Compress rest)).map (b :: ·) = some (b :: rest)
    rw [ih]
    rfl

theorem verifiesOwn : Signing.VerifiesOwn primitives := by
  intro signingKey message
  simp [primitives]

/-! ### Identities that are valid

With a keystream of zeros and digests that begin with zeros the memory-hard hash changes
nothing: each turn of its loop exchanges zeros for zeros. So the address of an identity can
be read off its keys. -/

/-- Zeros, bytes that depend on the message, and an address that depends on its last byte. -/
def addressDigest (message : Bytes) : ByteVec 64 :=
  ⟨List.replicate 8 0 ++ ((spread 51 (checksum message) message).toBytes ++
    [0x0a, 0x00, 0x00, 0x00, byteAt message 63]), by simp⟩

def validating : Primitives :=
  { primitives with
    salsa20 := fun _ _ _ => 0
    sha512 := addressDigest }

theorem xorStream_zero (b : Bytes) : xorStream (fun _ => 0) b = b := by
  apply List.ext_getElem (by simp)
  intro i h₁ h₂
  simp [xorStream]

theorem fill_zero (n : Nat) :
    MemoryHard.fill (fun _ => 0) n = (List.replicate (64 * n) 0, List.replicate 64 0) := by
  induction n with
  | zero => rfl
  | succ n ih =>
    have hblock : MemoryHard.applyKeystream (fun _ => 0) (n * 64) (List.replicate 64 0) = List.replicate 64 0 :=
      xorStream_zero _
    rw [MemoryHard.fill, ih]
    simp only [hblock, List.replicate_append_replicate]
    rfl

theorem ofBe_zeros (n : Nat) : ofBe (List.replicate n 0) = 0 := by
  induction n with
  | zero => rfl
  | succ n ih =>
    rw [List.replicate_succ, ofBe_cons, ih]
    simp

theorem u64At_zeros (n off : Nat) : u64At (List.replicate n 0) off = 0 := by
  rw [u64At, slice, List.drop_replicate, List.take_replicate, ofBe64, ofBe_zeros]
  rfl

/-- A turn of the loop leaves zeros as they are. -/
theorem mixStep_zeros {n : Nat} (hn : 8 ≤ n) (rest : Bytes) (position i : Nat) :
    MemoryHard.mixStep (fun _ => 0) ⟨List.replicate n 0, List.replicate 8 0 ++ rest, position⟩ i =
      ⟨List.replicate n 0, List.replicate 8 0 ++ rest, position + 64⟩ := by
  have hfront : slice (List.replicate n (0 : UInt8)) (0 * 8) 8 = List.replicate 8 0 := by
    rw [slice, Nat.zero_mul, List.drop_zero, List.take_replicate, min_eq_left hn]
  have hdigest : slice (List.replicate 8 (0 : UInt8) ++ rest) (0 * 8) 8 = List.replicate 8 0 :=
    slice_front (List.length_replicate ..)
  have htable : overwrite (List.replicate n (0 : UInt8)) (0 * 8) (List.replicate 8 0) = List.replicate n 0 := by
    rw [overwrite, Nat.zero_mul, List.take_zero, List.nil_append, Nat.zero_add, List.length_replicate,
      List.drop_replicate, List.replicate_append_replicate, Nat.add_sub_cancel' hn]
  have hsame : overwrite (List.replicate 8 (0 : UInt8) ++ rest) (0 * 8) (List.replicate 8 0) =
      List.replicate 8 0 ++ rest := rfl
  have hstream : MemoryHard.applyKeystream (fun _ => 0) position (List.replicate 8 (0 : UInt8) ++ rest) =
      List.replicate 8 0 ++ rest := xorStream_zero _
  unfold MemoryHard.mixStep
  simp only [u64At_zeros, UInt64.toNat_zero, Nat.zero_mod, hfront, hdigest, htable, hsame, hstream]

theorem foldl_mixStep_zeros {n : Nat} (hn : 8 ≤ n) (rest : Bytes) (position : Nat) (turns : List Nat) :
    (turns.foldl (MemoryHard.mixStep fun _ => 0) ⟨List.replicate n 0, List.replicate 8 0 ++ rest, position⟩).digest =
      List.replicate 8 0 ++ rest := by
  induction turns generalizing position with
  | nil => rfl
  | cons i turns ih =>
    rw [List.foldl_cons, mixStep_zeros hn]
    exact ih (position + 64)

theorem computeMemoryHardHash_validating (publicKey : ByteVec 64) :
    MemoryHard.computeMemoryHardHash validating publicKey = addressDigest publicKey.toBytes := by
  have hdigest : (addressDigest publicKey.toBytes).toBytes = List.replicate 8 0 ++
      ((spread 51 (checksum publicKey.toBytes) publicKey.toBytes).toBytes ++
        [0x0a, 0x00, 0x00, 0x00, byteAt publicKey.toBytes 63]) := rfl
  have hhash : MemoryHard.computeMemoryHardHash validating publicKey =
      ByteVec.ofBytes 64 ((List.range (MemoryHard.memorySize / 16)).foldl (MemoryHard.mixStep fun _ => 0)
        ⟨(MemoryHard.fill (fun _ => 0) MemoryHard.numBlocks).1, (addressDigest publicKey.toBytes).toBytes,
          MemoryHard.memorySize⟩).digest := rfl
  rw [hhash, fill_zero, hdigest, foldl_mixStep_zeros (by decide), ← hdigest, ByteVec.ofBytes_toBytes]

theorem deriveAddress_addressDigest (message : Bytes) :
    MemoryHard.deriveAddress (addressDigest message) =
      some ⟨[0x0a, 0x00, 0x00, 0x00, byteAt message 63], rfl⟩ := by
  have haddress : fieldAt 5 (addressDigest message).toBytes 59 =
      ⟨[0x0a, 0x00, 0x00, 0x00, byteAt message 63], rfl⟩ := by
    have hsplit : (addressDigest message).toBytes = (List.replicate 8 0 ++
        (spread 51 (checksum message) message).toBytes) ++ ([0x0a, 0x00, 0x00, 0x00, byteAt message 63] ++ []) := by
      simp [addressDigest, ByteVec.toBytes]
    have hlen : (List.replicate 8 0 ++ (spread 51 (checksum message) message).toBytes).length = 59 := by simp
    rw [hsplit]
    exact fieldAt_append _ ⟨[0x0a, 0x00, 0x00, 0x00, byteAt message 63], rfl⟩ [] 59 hlen
  have hfirst : byteAt (addressDigest message).toBytes 0 = 0 := rfl
  unfold MemoryHard.deriveAddress
  rw [haddress, hfirst]
  simp [MemoryHard.hashcashThreshold, ByteVec.toBytes]

/-- An identity is valid if its address is the one its keys hash to. -/
theorem validateAddress_validating {i : Identity}
    (h : i.address.bytes.toBytes = [0x0a, 0x00, 0x00, 0x00, byteAt i.publicKey.signing.toBytes 31]) :
    i.validateAddress validating = true := by
  have hlast : byteAt i.publicKey.toBytes.toBytes 63 = byteAt i.publicKey.signing.toBytes 31 := by
    show byteAt (i.publicKey.dh.toBytes ++ i.publicKey.signing.toBytes) 63 = _
    rw [byteAt_append (by simp), ByteVec.length_toBytes]
  rw [Identity.validateAddress_iff, computeMemoryHardHash_validating, deriveAddress_addressDigest, hlast]
  exact congrArg some (ByteVec.toBytes_injective h.symm)

theorem xorVec_comm {n : Nat} (a b : ByteVec n) : xorVec a b = xorVec b a := by
  apply ByteVec.toBytes_injective
  show List.zipWith _ a.toBytes b.toBytes = List.zipWith _ b.toBytes a.toBytes
  rw [List.zipWith_comm]
  exact congrArg (List.zipWith · b.toBytes a.toBytes) (funext fun x => funext fun y => UInt8.xor_comm y x)

theorem commutes_validating : KeyAgreement.Commutes validating := by
  intro s t
  rw [KeyAgreement.keyAgree, KeyAgreement.keyAgree]
  exact congrArg (fun point : ByteVec 32 => ByteVec.ofBytes 48 (validating.sha512 point.toBytes).toBytes) (xorVec_comm s t)

end ManyTier.Sample
