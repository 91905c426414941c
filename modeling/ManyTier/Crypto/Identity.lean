import ManyTier.Crypto.Primitives

/-! Addresses and identities.

An identity binds two key pairs to a 40-bit address taken from a memory-hard hash
of the public keys. `Address` carries the check of its constructor, so a reserved
address cannot be built, and `validateAddress` recomputes the binding. The text
form is hex fields joined by colons. -/
namespace ManyTier

/-! ### Hex -/

namespace HexUtil

def hexChar (n : UInt8) : UInt8 := if n < 10 then 0x30 + n else 0x57 + n

def encode (bytes : Bytes) : Bytes :=
  bytes.flatMap fun (b : UInt8) => [hexChar (b >>> 4), hexChar (b &&& 0x0f)]

def nibble (c : UInt8) : Except CryptoError UInt8 :=
  if 0x30 ≤ c ∧ c ≤ 0x39 then .ok (c - 0x30)
  else if 0x61 ≤ c ∧ c ≤ 0x66 then .ok (c - 0x61 + 10)
  else if 0x41 ≤ c ∧ c ≤ 0x46 then .ok (c - 0x41 + 10)
  else .error .invalidFormat

/-- Pairs of nibbles; an odd length is refused before any character is read. -/
def decodePairs : Bytes → Except CryptoError Bytes
  | h :: l :: rest => do
    let high ← nibble h
    let low ← nibble l
    return ((high <<< 4) ||| low) :: (← decodePairs rest)
  | _ => .ok []

def decode (hex : Bytes) : Except CryptoError Bytes :=
  if hex.length % 2 ≠ 0 then .error .invalidFormat else decodePairs hex

/-- The two digits of a byte read back, and neither is the separator of the text form. -/
theorem hexChar_digits (b : UInt8) :
    nibble (hexChar (b >>> 4)) = .ok (b >>> 4) ∧ nibble (hexChar (b &&& 0x0f)) = .ok (b &&& 0x0f) ∧
      ((b >>> 4) <<< 4) ||| (b &&& 0x0f) = b ∧ hexChar (b >>> 4) ≠ 0x3a ∧ hexChar (b &&& 0x0f) ≠ 0x3a := by
  revert b
  exact forall_byte (by decide +kernel)

@[simp] theorem length_encode (bytes : Bytes) : (encode bytes).length = 2 * bytes.length := by
  induction bytes with
  | nil => rfl
  | cons b rest ih =>
    show (encode rest).length + 2 = _
    rw [ih, List.length_cons]
    omega

theorem not_mem_encode (bytes : Bytes) : 0x3a ∉ encode bytes := by
  intro hmem
  obtain ⟨b, -, hb⟩ := List.mem_flatMap.mp hmem
  obtain ⟨-, -, -, hhigh, hlow⟩ := hexChar_digits b
  rcases List.mem_cons.mp hb with h | h
  · exact hhigh h.symm
  · exact hlow (List.mem_singleton.mp h).symm

theorem decodePairs_encode (bytes : Bytes) : decodePairs (encode bytes) = .ok bytes := by
  induction bytes with
  | nil => rfl
  | cons b rest ih =>
    obtain ⟨hhigh, hlow, hwhole, -⟩ := hexChar_digits b
    show decodePairs (hexChar (b >>> 4) :: hexChar (b &&& 0x0f) :: encode rest) = _
    rw [decodePairs, hhigh, hlow, ih]
    show Except.ok (_ :: rest) = _
    rw [hwhole]

/-- What was encoded reads back. -/
theorem decode_encode (bytes : Bytes) : decode (encode bytes) = .ok bytes := by
  rw [decode, if_neg (by simp), decodePairs_encode]

end HexUtil

/-! ### Addresses -/

/-- A network address: five bytes, not all zero and not all ones. -/
structure Address where
  bytes : ByteVec 5
  notZero : bytes.toBytes ≠ [0x00, 0x00, 0x00, 0x00, 0x00]
  notOnes : bytes.toBytes ≠ [0xff, 0xff, 0xff, 0xff, 0xff]
  deriving DecidableEq

namespace Address

def new (bytes : ByteVec 5) : Except CryptoError Address :=
  if h₀ : bytes.toBytes = [0x00, 0x00, 0x00, 0x00, 0x00] then .error .invalidAddress
  else if h₁ : bytes.toBytes = [0xff, 0xff, 0xff, 0xff, 0xff] then .error .invalidAddress
  else .ok ⟨bytes, h₀, h₁⟩

@[simp] theorem new_bytes (a : Address) : new a.bytes = .ok a := by
  simp [new, a.notZero, a.notOnes]

def fromHex (hex : Bytes) : Except CryptoError Address :=
  if hex.length ≠ 10 then .error .invalidFormat
  else do
    let bytes ← HexUtil.decode hex
    if bytes.length ≠ 5 then .error .invalidFormat else new (ByteVec.ofBytes 5 bytes)

def toHex (a : Address) : Bytes := HexUtil.encode a.bytes.toBytes

theorem fromHex_toHex (a : Address) : fromHex a.toHex = .ok a := by
  have hlen : a.toHex.length = 10 := by simp [toHex]
  rw [fromHex, if_neg (not_not.mpr hlen), toHex, HexUtil.decode_encode]
  show (if a.bytes.toBytes.length ≠ 5 then _ else _) = _
  rw [if_neg (by simp), ByteVec.ofBytes_toBytes, new_bytes]

end Address

/-! ### The address hash -/

namespace MemoryHard

def memorySize : Nat := 2097152
def numBlocks : Nat := memorySize / 64
def hashcashThreshold : UInt8 := 17

/-- The lookup table, the digest and how much of the keystream has been used. -/
structure Working where
  genmem : Bytes
  digest : Bytes
  position : Nat

/-- The keystream continued over `b` from where it stands. -/
def applyKeystream (ks : Nat → UInt8) (position : Nat) (b : Bytes) : Bytes :=
  xorStream (fun i => ks (position + i)) b

/-- Each 64-byte block is the block before it, encrypted; the first encrypts zeros. -/
def fill (ks : Nat → UInt8) : Nat → Bytes × Bytes
  | 0 => ([], List.replicate 64 0)
  | n + 1 =>
    let (table, previous) := fill ks n
    let block := applyKeystream ks (n * 64) previous
    (table ++ block, block)

/-- One turn of the lookup loop, on the pair of table words numbered `i`. -/
def mixStep (ks : Nat → UInt8) (w : Working) (i : Nat) : Working :=
  let idx1 := (u64At w.genmem (2 * i * 8)).toNat % 8
  let idx2 := (u64At w.genmem ((2 * i + 1) * 8)).toNat % (memorySize / 8)
  let tmp := slice w.genmem (idx2 * 8) 8
  let genmem := overwrite w.genmem (idx2 * 8) (slice w.digest (idx1 * 8) 8)
  let digest := overwrite w.digest (idx1 * 8) tmp
  { genmem, digest := applyKeystream ks w.position digest, position := w.position + 64 }

def computeMemoryHardHash (pr : Primitives) (publicKey : ByteVec 64) : ByteVec 64 :=
  let digest := (pr.sha512 publicKey.toBytes).toBytes
  let ks := pr.salsa20 (fieldAt 32 digest 0) (fieldAt 8 digest 32)
  let start : Working := ⟨(fill ks numBlocks).1, digest, memorySize⟩
  ByteVec.ofBytes 64 ((List.range (memorySize / 16)).foldl (mixStep ks) start).digest

def deriveAddress (digest : ByteVec 64) : Option (ByteVec 5) :=
  let addr := fieldAt 5 digest.toBytes 59
  if hashcashThreshold ≤ byteAt digest.toBytes 0 then none
  else if addr.toBytes = [0x00, 0x00, 0x00, 0x00, 0x00] then none
  else if addr.toBytes = [0xff, 0xff, 0xff, 0xff, 0xff] then none
  else some addr

end MemoryHard

/-! ### Identities -/

/-- An X25519 key followed by an Ed25519 key. -/
structure PublicKey where
  dh : ByteVec 32
  signing : ByteVec 32
  deriving DecidableEq

namespace PublicKey

def fromBytes (bytes : Bytes) : Except CryptoError PublicKey :=
  if bytes.length ≠ 64 then .error .invalidKeyLength
  else .ok ⟨ByteVec.ofBytes 32 bytes, fieldAt 32 bytes 32⟩

def toBytes (k : PublicKey) : ByteVec 64 :=
  ⟨k.dh.toBytes ++ k.signing.toBytes, by simp⟩

def fromHex (hex : Bytes) : Except CryptoError PublicKey :=
  if hex.length ≠ 128 then .error .invalidKeyLength
  else do fromBytes (← HexUtil.decode hex)

def toHex (k : PublicKey) : Bytes := HexUtil.encode k.toBytes.toBytes

theorem fromHex_toHex (k : PublicKey) : fromHex k.toHex = .ok k := by
  have hlen : k.toHex.length = 128 := by simp [toHex]
  rw [fromHex, if_neg (not_not.mpr hlen), toHex, HexUtil.decode_encode]
  show fromBytes (k.dh.toBytes ++ k.signing.toBytes) = _
  have hsigning : fieldAt 32 (k.dh.toBytes ++ k.signing.toBytes) 32 = k.signing := by
    simpa using fieldAt_append k.dh.toBytes k.signing [] 32 (by simp)
  rw [fromBytes, if_neg (by simp), ByteVec.ofBytes_append, hsigning]

end PublicKey

structure SecretKey where
  dh : ByteVec 32
  signing : ByteVec 32
  deriving DecidableEq

namespace SecretKey

def fromBytes (bytes : Bytes) : Except CryptoError SecretKey :=
  if bytes.length ≠ 64 then .error .invalidKeyLength
  else .ok ⟨ByteVec.ofBytes 32 bytes, fieldAt 32 bytes 32⟩

def toBytes (k : SecretKey) : ByteVec 64 :=
  ⟨k.dh.toBytes ++ k.signing.toBytes, by simp⟩

def toHex (k : SecretKey) : Bytes := HexUtil.encode k.toBytes.toBytes

theorem fromBytes_toBytes (k : SecretKey) : fromBytes k.toBytes.toBytes = .ok k := by
  show fromBytes (k.dh.toBytes ++ k.signing.toBytes) = _
  have hsigning : fieldAt 32 (k.dh.toBytes ++ k.signing.toBytes) 32 = k.signing := by
    simpa using fieldAt_append k.dh.toBytes k.signing [] 32 (by simp)
  rw [fromBytes, if_neg (by simp), ByteVec.ofBytes_append, hsigning]

end SecretKey

structure Identity where
  address : Address
  publicKey : PublicKey
  secret : Option SecretKey
  deriving DecidableEq

namespace Identity

/-- Whether the address is the one the public keys hash to. -/
def validateAddress (pr : Primitives) (i : Identity) : Bool :=
  match MemoryHard.deriveAddress (MemoryHard.computeMemoryHardHash pr i.publicKey.toBytes) with
  | some addr => addr = i.address.bytes
  | none => false

theorem validateAddress_iff (pr : Primitives) (i : Identity) : i.validateAddress pr = true ↔
    MemoryHard.deriveAddress (MemoryHard.computeMemoryHardHash pr i.publicKey.toBytes) = some i.address.bytes := by
  suffices h : ∀ validate, validate = @validateAddress → (validate pr i = true ↔ MemoryHard.deriveAddress
      (MemoryHard.computeMemoryHardHash pr i.publicKey.toBytes) = some i.address.bytes) from h _ rfl
  -- unfolded under its name, since the hash must not be evaluated
  intro validate hv
  delta validateAddress at hv
  subst hv
  beta_reduce
  generalize MemoryHard.deriveAddress (MemoryHard.computeMemoryHardHash pr i.publicKey.toBytes) = derived
  cases derived <;> simp

/-- The separator and the identity type: `:0:`. -/
def typeField : Bytes := [0x3a, 0x30, 0x3a]

def toPublicString (i : Identity) : Bytes :=
  i.address.toHex ++ typeField ++ i.publicKey.toHex

def toSecretString (i : Identity) : Option Bytes :=
  i.secret.map fun secret =>
    i.address.toHex ++ typeField ++ i.publicKey.toHex ++ [0x3a] ++ secret.toHex

/-- The fields between colons. -/
def splitColon (s : Bytes) : List Bytes := s.splitOn 0x3a

def parse (s : Bytes) : Except CryptoError Identity :=
  let fields (addr kind key : Bytes) (secret : Except CryptoError (Option SecretKey)) := do
    let address ← Address.fromHex addr
    if kind ≠ [0x30] then throw .unsupportedIdentityType
    let publicKey ← PublicKey.fromHex key
    return { address, publicKey, secret := ← secret }
  match splitColon s with
  | [addr, kind, key] => fields addr kind key (.ok none)
  | [addr, kind, key, sec] => fields addr kind key do
      match HexUtil.decode sec with
      | .ok bytes => return some (← SecretKey.fromBytes bytes)
      | .error _ => .error .invalidFormat
  | _ => .error .invalidFormat

/-- The fields of a public text, with whatever is behind it. -/
theorem splitColon_toPublicString (i : Identity) (rest : Bytes) :
    splitColon (i.toPublicString ++ rest) = i.address.toHex :: [0x30] :: splitColon (i.publicKey.toHex ++ rest) := by
  have hkind : (0x3a : UInt8) ∉ ([0x30] : Bytes) := by decide
  have haddr : (0x3a : UInt8) ∉ i.address.toHex := HexUtil.not_mem_encode _
  have htext : i.toPublicString ++ rest = i.address.toHex ++ 0x3a :: ([0x30] ++ 0x3a :: (i.publicKey.toHex ++ rest)) := by
    simp [toPublicString, typeField]
  rw [splitColon, htext, List.splitOn_append_cons_self_of_not_mem haddr, List.splitOn_append_cons_self_of_not_mem hkind]
  rfl

/-- The text of a public identity reads back. -/
theorem parse_toPublicString (i : Identity) : parse i.toPublicString = .ok { i with secret := none } := by
  have hfields : splitColon i.toPublicString = [i.address.toHex, [0x30], i.publicKey.toHex] := by
    have hkey : (0x3a : UInt8) ∉ i.publicKey.toHex := HexUtil.not_mem_encode _
    have hsplit := splitColon_toPublicString i []
    rw [List.append_nil, List.append_nil] at hsplit
    rw [hsplit, splitColon, List.splitOn_eq_singleton hkey]
  simp only [parse, hfields, Address.fromHex_toHex, PublicKey.fromHex_toHex]
  rfl

end Identity

end ManyTier
