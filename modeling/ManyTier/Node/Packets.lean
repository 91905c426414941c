import ManyTier.Protocol.Control
import ManyTier.Protocol.Frames

/-! The packets a node builds, before they are armored.

HELLO, WHOIS, OK(HELLO), RENDEZVOUS and the answer to WHOIS take the clock as their
packet id; the others take an id from the node's counter. A HELLO is armored without
encryption, everything else with it. -/
namespace ManyTier

/-- A header with an empty MAC field. -/
def plainHeader (packetId : UInt64) (dest source : ByteVec 5) (flags verb : UInt8) : Bytes :=
  be64 packetId ++ (dest.toBytes ++ (source.toBytes ++ (flags :: (List.replicate 8 0 ++ [verb]))))

@[simp] theorem length_plainHeader (packetId : UInt64) (dest source : ByteVec 5) (flags verb : UInt8) :
    (plainHeader packetId dest source flags verb).length = 28 := by
  simp [plainHeader]

/-- It is the header with these fields. -/
theorem plainHeader_eq (packetId : UInt64) (dest source : ByteVec 5) (flags verb : UInt8) :
    plainHeader packetId dest source flags verb =
      PacketHeader.toBytes ⟨fieldAt 8 (be64 packetId) 0, dest, source, flags, ByteVec.zero 8, verb⟩ := by
  have hiv : (fieldAt 8 (be64 packetId) 0).toBytes = be64 packetId := by
    rw [fieldAt, ByteVec.toBytes_ofBytes _ _ (by simp)]
    exact List.take_of_length_le (by simp)
  rw [plainHeader, PacketHeader.toBytes, hiv]
  rfl

/-- The fields of a packet behind such a header. -/
theorem read_plainHeader (packetId : UInt64) (dest source : ByteVec 5) (flags verb : UInt8)
    (payload : Bytes) :
    PacketHeader.read (plainHeader packetId dest source flags verb ++ payload) =
      ⟨fieldAt 8 (be64 packetId) 0, dest, source, flags, ByteVec.zero 8, verb⟩ := by
  rw [plainHeader_eq, PacketHeader.read_toBytes]

@[simp] theorem ofBe64_fieldAt_be64 (x : UInt64) : ofBe64 (fieldAt 8 (be64 x) 0).toBytes = x := by
  rw [fieldAt, ByteVec.toBytes_ofBytes _ _ (by simp), List.drop_zero,
    List.take_of_length_le (by simp), ofBe64_be64]

/-- The flags byte of an encrypted packet that has not been relayed. -/
def encryptedFlags : UInt8 := Constants.cipherSalsa2012 <<< 3

/-- An encrypted packet: header, then the payload. -/
def encryptedVerbPacket (packetId : UInt64) (ourAddress destAddress : ByteVec 5) (verb : Verb)
    (payload : Bytes) : Bytes :=
  plainHeader packetId destAddress ourAddress encryptedFlags verb.toByte ++ payload

/-- A packet of suite 1, armored: the header up to the MAC stays in the clear, and the
holder of the secret gets the payload back. -/
theorem dearmor_flagged (pr : Primitives) (secret : Secret) (packetId : UInt64) (dest source : ByteVec 5)
    {flags : UInt8} (hsalsa : (flags >>> 3) &&& 0x07 = Constants.cipherSalsa2012) (verb : UInt8) (payload : Bytes) :
    let packet := plainHeader packetId dest source flags verb ++ payload
    ∃ sealed mac, Salsa.armorPacket pr secret packet true = .ok sealed ∧
      sealed.length = packet.length ∧ sealed.take 19 = packet.take 19 ∧
      Salsa.dearmorPacket pr secret sealed = .ok (PacketHeader.toBytes
        ⟨fieldAt 8 (be64 packetId) 0, dest, source, flags, mac, verb⟩ ++ payload) := by
  intro packet
  have hlen : Salsa.packetMinLen ≤ packet.length := by simp [packet, Salsa.packetMinLen]
  have hread : PacketHeader.read packet = _ := read_plainHeader packetId dest source flags verb payload
  have hflags : byteAt packet 18 = flags := congrArg PacketHeader.flags hread
  have hsuite : true = true ↔ Salsa.cipherSuite packet = 1 := by
    simp only [Salsa.cipherSuite, Salsa.packetFlagsOffset, hflags, true_iff]
    exact hsalsa
  obtain ⟨sealed, mac, harmor, hlength, htake, -, hopen⟩ :=
    Salsa.dearmorPacket_armorPacket pr secret packet true hlen hsuite
  refine ⟨sealed, mac, harmor, hlength, htake, ?_⟩
  rw [hopen, show packet = _ ++ payload from rfl, plainHeader_eq, PacketHeader.withMac_toBytes]

/-- An encrypted packet, armored. -/
theorem dearmor_encrypted (pr : Primitives) (secret : Secret) (packetId : UInt64)
    (dest source : ByteVec 5) (verb : UInt8) (payload : Bytes) :
    let packet := plainHeader packetId dest source encryptedFlags verb ++ payload
    ∃ sealed mac, Salsa.armorPacket pr secret packet true = .ok sealed ∧
      sealed.length = packet.length ∧ sealed.take 19 = packet.take 19 ∧
      Salsa.dearmorPacket pr secret sealed = .ok (PacketHeader.toBytes
        ⟨fieldAt 8 (be64 packetId) 0, dest, source, encryptedFlags, mac, verb⟩ ++ payload) :=
  dearmor_flagged pr secret packetId dest source (by decide) verb payload

/-- What the holder of the secret reads in it: the verb, whom it is for and the payload. -/
theorem opens_flagged (pr : Primitives) (secret : Secret) (packetId : UInt64) (dest source : ByteVec 5) {flags : UInt8}
    (hsalsa : (flags >>> 3) &&& 0x07 = Constants.cipherSalsa2012) (verb : UInt8) (payload : Bytes) :
    ∃ sealed opened, Salsa.armorPacket pr secret (plainHeader packetId dest source flags verb ++ payload) true =
        .ok sealed ∧ Salsa.dearmorPacket pr secret sealed = .ok opened ∧ (PacketHeader.read opened).verb = verb ∧
      (PacketHeader.read opened).dest = dest ∧ opened.drop Constants.minPacketLength = payload := by
  obtain ⟨sealed, mac, harmor, -, -, hopen⟩ := dearmor_flagged pr secret packetId dest source hsalsa verb payload
  refine ⟨sealed, _, harmor, hopen, ?_, ?_, ?_⟩
  · rw [PacketHeader.read_toBytes]
  · rw [PacketHeader.read_toBytes]
  · exact List.drop_left' (by simp [Constants.minPacketLength])

theorem opens_encrypted (pr : Primitives) (secret : Secret) (packetId : UInt64) (ours dest : ByteVec 5) (verb : Verb)
    (payload : Bytes) :
    ∃ sealed opened, Salsa.armorPacket pr secret (encryptedVerbPacket packetId ours dest verb payload) true =
        .ok sealed ∧ Salsa.dearmorPacket pr secret sealed = .ok opened ∧
      (PacketHeader.read opened).verb = verb.toByte ∧ (PacketHeader.read opened).dest = dest ∧
      opened.drop Constants.minPacketLength = payload :=
  opens_flagged pr secret packetId dest ours (by decide) verb.toByte payload

/-- An encrypted packet can always be armored. -/
theorem isOk_armorPacket_encrypted (pr : Primitives) (secret : Secret) (packetId : UInt64) (ours dest : ByteVec 5)
    (verb : Verb) (payload : Bytes) :
    ∃ sealed, Salsa.armorPacket pr secret (encryptedVerbPacket packetId ours dest verb payload) true = .ok sealed := by
  obtain ⟨sealed, -, harmor, -⟩ := opens_encrypted pr secret packetId ours dest verb payload
  exact ⟨sealed, harmor⟩

namespace RootManager

/-- The HELLO packet up to the moon count, the count and the empty certificate that
follow it. The count is the only field encrypted, under the bare secret. -/
def buildHello (pr : Primitives) (ourIdentity : Identity) (destAddress : ByteVec 5)
    (destPhysical : SocketAddr) (now : UInt64) (sharedSecret : Secret)
    (planetWorldId planetWorldTimestamp : UInt64) : Except CryptoError Bytes :=
  let hello : HelloPayload :=
    { HelloPayload.new { ourIdentity with secret := none } now (.fromSocketAddr destPhysical) with
      planetWorldId, planetWorldTimestamp }
  let front := plainHeader now destAddress ourIdentity.address.bytes
    (Constants.cipherNone <<< 3) Verb.hello.toByte ++ hello.serialize
  Salsa.cryptPacketField pr sharedSecret (front ++ be16 0 ++ [0x00, 0x00]) front.length 2

/-- A WHOIS request, unless it does not fit a buffer of `bufLen` bytes. -/
def buildWhois (ourIdentity : Identity) (destAddress : ByteVec 5) (addresses : List (ByteVec 5))
    (now : UInt64) (bufLen : Nat) : Except ProtocolError Bytes :=
  let need := Constants.minPacketLength + addresses.length * 5
  if bufLen < need then .error (.tooShort need bufLen)
  else .ok (encryptedVerbPacket now ourIdentity.address.bytes destAddress .whois
    (WhoisRequest.serialize addresses))

def buildOkHello (ourIdentity : Identity) (destAddress : ByteVec 5)
    (inRePacketId timestampEcho now : UInt64) : Bytes :=
  encryptedVerbPacket now ourIdentity.address.bytes destAddress .ok
    (OkPayload.serialize ⟨.hello, inRePacketId,
      .hello timestampEcho HelloPayload.advertisedProtocolVersion 0 1 0 none⟩)

def buildRendezvous (ourIdentity : Identity) (destAddress targetPeerAddress : ByteVec 5)
    (targetPhysical : InetAddress) (now : UInt64) : Bytes :=
  encryptedVerbPacket now ourIdentity.address.bytes destAddress .rendezvous
    (RendezvousPayload.serialize ⟨0, targetPeerAddress, targetPhysical⟩)

end RootManager

end ManyTier
