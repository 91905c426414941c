import ManyTier.Crypto.Primitives

/-! Packet armor of cipher suites 0 and 1.

The key of a packet is the shared secret combined with the header fields that do
not change on the way (`mangleKey`), its nonce is the packet id, and the first
keystream block makes the one-time key of the MAC. `dearmorPacket_armorPacket` is
the round trip, and `keystream_eq` says what two packets must agree on to be armored
under one keystream. -/
namespace ManyTier

namespace Poly

/-- The MAC on the wire: the first half of the tag. -/
def computeMac (pr : Primitives) (oneTimeKey : ByteVec 32) (data : Bytes) : ByteVec 8 :=
  ByteVec.ofBytes 8 (pr.poly1305 oneTimeKey data).toBytes

def verifyMac (pr : Primitives) (oneTimeKey : ByteVec 32) (data : Bytes) (expected : ByteVec 8) : Bool :=
  computeMac pr oneTimeKey data = expected

end Poly

namespace Salsa

def packetDestOffset : Nat := 8
def packetSourceOffset : Nat := 13
def packetFlagsOffset : Nat := 18
def packetMacOffset : Nat := 19
def packetVerbOffset : Nat := 27
def packetMinLen : Nat := 28

/-- The first 32 bytes of the secret, with the id, both addresses, the flags byte
without its hop count and the packet size mixed in. -/
def mangleKey (sharedSecret : Secret) (header : Bytes) (packetSize : Nat) : ByteVec 32 :=
  let size := UInt16.ofNat packetSize
  ⟨(List.range 32).map fun i =>
      let s := byteAt sharedSecret.toBytes i
      if i < 18 then s ^^^ byteAt header i
      else if i = 18 then s ^^^ (byteAt header 18 &&& 0xf8)
      else if i = 19 then s ^^^ size.toUInt8
      else if i = 20 then s ^^^ (size >>> 8).toUInt8
      else s,
    by simp⟩

/-- The keystream of a packet under an already mangled key. -/
def stream (pr : Primitives) (key : ByteVec 32) (packet : Bytes) : Nat → UInt8 :=
  pr.salsa12 key (fieldAt 8 packet 0)

def polyKey (ks : Nat → UInt8) : ByteVec 32 := ⟨(List.range 32).map ks, by simp⟩

/-- The payload keystream starts at the second 64-byte block. -/
def payloadStream (ks : Nat → UInt8) : Nat → UInt8 := fun i => ks (64 + i)

def body (packet : Bytes) : Bytes := packet.drop packetVerbOffset

def savedMac (packet : Bytes) : ByteVec 8 := fieldAt 8 packet packetMacOffset

/-- The MAC goes over the payload as sent; the header takes part through the key. -/
def sealWith (pr : Primitives) (ks : Nat → UInt8) (packet payload : Bytes) : Bytes :=
  packet.take packetMacOffset ++
    ((Poly.computeMac pr (polyKey ks) payload).toBytes ++ payload)

def armorPacket (pr : Primitives) (sharedSecret : Secret) (packet : Bytes) (encryptPayload : Bool) :
    Except CryptoError Bytes :=
  if packet.length < packetMinLen then .error .invalidFormat
  else
    let ks := stream pr (mangleKey sharedSecret packet packet.length) packet
    let payload := if encryptPayload then xorStream (payloadStream ks) (body packet) else body packet
    .ok (sealWith pr ks packet payload)

/-- Whether the MAC in the packet is the one its key gives. -/
def macVerifies (pr : Primitives) (sharedSecret : Secret) (packet : Bytes) : Bool :=
  let ks := stream pr (mangleKey sharedSecret packet packet.length) packet
  Poly.verifyMac pr (polyKey ks) (body packet) (savedMac packet)

def cipherSuite (packet : Bytes) : UInt8 := (byteAt packet packetFlagsOffset >>> 3) &&& 0x07

def dearmorPacket (pr : Primitives) (sharedSecret : Secret) (packet : Bytes) :
    Except CryptoError Bytes :=
  if packet.length < packetMinLen then .error .invalidFormat
  else if ! macVerifies pr sharedSecret packet then .error .macVerificationFailed
  else if cipherSuite packet = 1 then
    let ks := stream pr (mangleKey sharedSecret packet packet.length) packet
    .ok (packet.take packetVerbOffset ++ xorStream (payloadStream ks) (body packet))
  else .ok packet

/-- A field of a packet combined with the keystream of the bare secret; the nonce
is the packet id without its low three bits. -/
def cryptPacketField (pr : Primitives) (sharedSecret : Secret) (packet : Bytes) (start len : Nat) :
    Except CryptoError Bytes :=
  if packet.length < packetMinLen ∨ packet.length < start ∨ packet.length < start + len then
    .error .invalidFormat
  else
    let nonce := ByteVec.ofBytes 8 (packet.take 7 ++ [byteAt packet 7 &&& 0xf8])
    let ks := pr.salsa12 (ByteVec.ofBytes 32 sharedSecret.toBytes) nonce
    .ok (overwrite packet start (xorStream ks (slice packet start len)))

/-! ### What the keystream depends on -/

/-- The part of a packet that `mangleKey` and the nonce read. -/
structure KeystreamInput where
  packetId : ByteVec 8
  dest : ByteVec 5
  source : ByteVec 5
  maskedFlags : UInt8
  size : UInt16
  deriving DecidableEq

def keystreamInput (packet : Bytes) : KeystreamInput where
  packetId := fieldAt 8 packet 0
  dest := fieldAt 5 packet packetDestOffset
  source := fieldAt 5 packet packetSourceOffset
  maskedFlags := byteAt packet packetFlagsOffset &&& 0xf8
  size := UInt16.ofNat packet.length

theorem byteAt_eq_of_input {a b : Bytes} (h : keystreamInput a = keystreamInput b) (i : Nat)
    (hi : i < 18) : byteAt a i = byteAt b i := by
  simp only [keystreamInput, KeystreamInput.mk.injEq] at h
  obtain ⟨hid, hdest, hsource, -, -⟩ := h
  rcases Nat.lt_or_ge i 8 with h8 | h8
  · simpa [byteAt_fieldAt _ _ _ h8] using congrArg (fun v => byteAt v.toBytes i) hid
  · rcases Nat.lt_or_ge i 13 with h13 | h13
    · have hlt : i - 8 < 5 := by omega
      have hoff : 8 + (i - 8) = i := by omega
      simpa [byteAt_fieldAt _ _ _ hlt, packetDestOffset, hoff]
        using congrArg (fun v => byteAt v.toBytes (i - 8)) hdest
    · have hlt : i - 13 < 5 := by omega
      have hoff : 13 + (i - 13) = i := by omega
      simpa [byteAt_fieldAt _ _ _ hlt, packetSourceOffset, hoff]
        using congrArg (fun v => byteAt v.toBytes (i - 13)) hsource

/-- Packets with the same input are armored under the same key. -/
theorem mangleKey_eq (sharedSecret : Secret) {a b : Bytes}
    (h : keystreamInput a = keystreamInput b) :
    mangleKey sharedSecret a a.length = mangleKey sharedSecret b b.length := by
  apply ByteVec.toBytes_injective
  have hflags : byteAt a 18 &&& 0xf8 = byteAt b 18 &&& 0xf8 := congrArg KeystreamInput.maskedFlags h
  have hsize : UInt16.ofNat a.length = UInt16.ofNat b.length := congrArg KeystreamInput.size h
  show List.map _ _ = List.map _ _
  apply List.map_congr_left
  intro i _
  simp only [hflags, hsize]
  by_cases hi : i < 18
  · simp [hi, byteAt_eq_of_input h i hi]
  · simp [hi]

/-- Packets with the same input are armored under the same keystream. -/
theorem keystream_eq (pr : Primitives) (sharedSecret : Secret) {a b : Bytes}
    (h : keystreamInput a = keystreamInput b) :
    stream pr (mangleKey sharedSecret a a.length) a =
      stream pr (mangleKey sharedSecret b b.length) b := by
  rw [stream, stream, mangleKey_eq sharedSecret h]
  exact congrArg _ (congrArg KeystreamInput.packetId h)

/-! ### The round trip -/

theorem length_sealWith (pr : Primitives) (ks : Nat → UInt8) (packet payload : Bytes)
    (hlen : packetMinLen ≤ packet.length) (hpay : payload.length = (body packet).length) :
    (sealWith pr ks packet payload).length = packet.length := by
  simp only [packetMinLen] at hlen
  simp only [sealWith, List.length_append, List.length_take, ByteVec.length_toBytes, hpay, body,
    List.length_drop, packetMacOffset, packetVerbOffset]
  omega

theorem body_sealWith (pr : Primitives) (ks : Nat → UInt8) (packet payload : Bytes)
    (hlen : packetMinLen ≤ packet.length) : body (sealWith pr ks packet payload) = payload := by
  simp only [packetMinLen] at hlen
  rw [sealWith, body, ← List.append_assoc]
  apply List.drop_left'
  simp [packetMacOffset, packetVerbOffset]
  omega

theorem savedMac_sealWith (pr : Primitives) (ks : Nat → UInt8) (packet payload : Bytes)
    (hlen : packetMinLen ≤ packet.length) :
    savedMac (sealWith pr ks packet payload) = Poly.computeMac pr (polyKey ks) payload := by
  simp only [packetMinLen] at hlen
  apply fieldAt_append
  simp [packetMacOffset]
  omega

theorem take_sealWith (pr : Primitives) (ks : Nat → UInt8) (packet payload : Bytes)
    (hlen : packetMinLen ≤ packet.length) :
    (sealWith pr ks packet payload).take packetMacOffset = packet.take packetMacOffset := by
  apply List.take_left'
  simp only [packetMinLen] at hlen
  simp [packetMacOffset]
  omega

/-- What the first 19 bytes and the length decide. -/
theorem keystreamInput_eq_of_take {a b : Bytes} (h : a.take packetMacOffset = b.take packetMacOffset)
    (hlen : a.length = b.length) : keystreamInput a = keystreamInput b := by
  have hfield : ∀ n off, off + n ≤ packetMacOffset → fieldAt n a off = fieldAt n b off := by
    intro n off hn
    rw [← fieldAt_take n a packetMacOffset off hn, h, fieldAt_take n b packetMacOffset off hn]
  have hflags : byteAt a packetFlagsOffset = byteAt b packetFlagsOffset := by
    rw [← byteAt_take a packetMacOffset _ (by decide), h, byteAt_take b packetMacOffset _ (by decide)]
  simp only [keystreamInput, hlen, hflags, hfield 8 0 (by decide),
    hfield 5 packetDestOffset (by decide), hfield 5 packetSourceOffset (by decide)]

theorem cipherSuite_eq_of_take {a b : Bytes} (h : a.take packetMacOffset = b.take packetMacOffset) :
    cipherSuite a = cipherSuite b := by
  rw [cipherSuite, ← byteAt_take a packetMacOffset _ (by decide), h,
    byteAt_take b packetMacOffset _ (by decide), cipherSuite]

/-- The packet with another MAC in its header. -/
def withMac (packet : Bytes) (mac : ByteVec 8) : Bytes :=
  packet.take packetMacOffset ++ (mac.toBytes ++ body packet)

/-- Armoring changes the MAC field and, for an encrypted payload, the payload; the
receiver with the same secret accepts the MAC and gets the payload back. -/
theorem dearmorPacket_armorPacket (pr : Primitives) (sharedSecret : Secret) (packet : Bytes)
    (encryptPayload : Bool) (hlen : packetMinLen ≤ packet.length)
    (hsuite : encryptPayload = true ↔ cipherSuite packet = 1) :
    ∃ sealed mac, armorPacket pr sharedSecret packet encryptPayload = .ok sealed ∧
      sealed.length = packet.length ∧
      sealed.take packetMacOffset = packet.take packetMacOffset ∧
      macVerifies pr sharedSecret sealed = true ∧
      dearmorPacket pr sharedSecret sealed = .ok (withMac packet mac) := by
  set ks := stream pr (mangleKey sharedSecret packet packet.length) packet with hks
  set payload := if encryptPayload then xorStream (payloadStream ks) (body packet) else body packet
    with hpayload
  set sealed := sealWith pr ks packet payload with hsealed
  have hpaylen : payload.length = (body packet).length := by
    rw [hpayload]
    split <;> simp
  have harmor : armorPacket pr sharedSecret packet encryptPayload = .ok sealed := by
    simp [armorPacket, Nat.not_lt.mpr hlen, ← hks, ← hpayload, hsealed]
  have hlength : sealed.length = packet.length := length_sealWith pr ks packet payload hlen hpaylen
  have htake : sealed.take packetMacOffset = packet.take packetMacOffset :=
    take_sealWith pr ks packet payload hlen
  have hstream : stream pr (mangleKey sharedSecret sealed sealed.length) sealed = ks :=
    keystream_eq pr sharedSecret (keystreamInput_eq_of_take htake hlength)
  have hbody : body sealed = payload := body_sealWith pr ks packet payload hlen
  have hsaved : savedMac sealed = Poly.computeMac pr (polyKey ks) payload :=
    savedMac_sealWith pr ks packet payload hlen
  have hmac : macVerifies pr sharedSecret sealed = true := by
    simp only [macVerifies, hstream, hbody, hsaved, Poly.verifyMac, decide_true]
  refine ⟨sealed, Poly.computeMac pr (polyKey ks) payload, harmor, hlength, htake, hmac, ?_⟩
  have hshort : ¬ sealed.length < packetMinLen := by omega
  have hverb : sealed.take packetVerbOffset =
      packet.take packetMacOffset ++ (Poly.computeMac pr (polyKey ks) payload).toBytes := by
    rw [hsealed, sealWith, ← List.append_assoc]
    apply List.take_left'
    simp only [packetMinLen] at hlen
    simp [packetMacOffset, packetVerbOffset]
    omega
  rw [dearmorPacket, if_neg hshort, hmac, cipherSuite_eq_of_take htake]
  cases encryptPayload with
  | true =>
    have hclear : xorStream (payloadStream ks) payload = body packet := by simp [hpayload]
    have hone := hsuite.mp rfl
    simp [hone, hstream, hbody, hclear, hverb, withMac]
  | false =>
    have hone : cipherSuite packet ≠ 1 := fun h => Bool.false_ne_true (hsuite.mpr h)
    simp [hone, hsealed, sealWith, hpayload, withMac]

end Salsa

end ManyTier
