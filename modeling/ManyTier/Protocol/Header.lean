import ManyTier.Crypto.Salsa

/-! Packet and fragment headers, verbs and the constants of the wire format. -/
namespace ManyTier

namespace Constants

def minPacketLength : Nat := 28
def minFragmentLength : Nat := 16
def maxPacketFragments : Nat := 7
def relayMaxHops : UInt8 := 3
def verbFlagCompressed : UInt8 := 0x80
def fragmentIndicator : UInt8 := 0xff

def cipherNone : UInt8 := 0
def cipherSalsa2012 : UInt8 := 1
def cipherAesGmacSiv : UInt8 := 3

def pathHeartbeatPeriod : UInt64 := 14000
def peerPathExpiration : UInt64 := 243000
def peerActivityTimeout : UInt64 := 500000
def pathHelloRateLimit : UInt64 := 1000
def directPathPushInterval : UInt64 := 30000

end Constants

/-- Why a decoder refused its input. -/
inductive ProtocolError where
  | tooShort (need got : Nat)
  | invalidPacket
  | invalidFragment
  | invalidAddress
  | invalidVerb (verb : UInt8)
  | fragmentTimeout
  | unsupportedVersion (version : UInt8)
  | crypto (error : CryptoError)
  deriving Repr, DecidableEq

/-! ### Verbs -/

inductive Verb where
  | nop
  | hello
  | error
  | ok
  | whois
  | rendezvous
  | frame
  | extFrame
  | echo
  | multicastLike
  | networkCredentials
  | networkConfigRequest
  | networkConfig
  | multicastGather
  | multicastFrame
  | pushDirectPaths
  | ack
  | qosMeasurement
  | userMessage
  | remoteTrace
  | pathNegotiationRequest
  deriving Repr, DecidableEq

namespace Verb

def toByte : Verb → UInt8
  | nop => 0x00
  | hello => 0x01
  | error => 0x02
  | ok => 0x03
  | whois => 0x04
  | rendezvous => 0x05
  | frame => 0x06
  | extFrame => 0x07
  | echo => 0x08
  | multicastLike => 0x09
  | networkCredentials => 0x0a
  | networkConfigRequest => 0x0b
  | networkConfig => 0x0c
  | multicastGather => 0x0d
  | multicastFrame => 0x0e
  | pushDirectPaths => 0x10
  | ack => 0x12
  | qosMeasurement => 0x13
  | userMessage => 0x14
  | remoteTrace => 0x15
  | pathNegotiationRequest => 0x16

/-- The verb in the low five bits; the upper three are flags. -/
def fromByte (b : UInt8) : Option Verb :=
  match (b &&& 0x1f).toNat with
  | 0x00 => some nop
  | 0x01 => some hello
  | 0x02 => some error
  | 0x03 => some ok
  | 0x04 => some whois
  | 0x05 => some rendezvous
  | 0x06 => some frame
  | 0x07 => some extFrame
  | 0x08 => some echo
  | 0x09 => some multicastLike
  | 0x0a => some networkCredentials
  | 0x0b => some networkConfigRequest
  | 0x0c => some networkConfig
  | 0x0d => some multicastGather
  | 0x0e => some multicastFrame
  | 0x10 => some pushDirectPaths
  | 0x12 => some ack
  | 0x13 => some qosMeasurement
  | 0x14 => some userMessage
  | 0x15 => some remoteTrace
  | 0x16 => some pathNegotiationRequest
  | _ => none

@[simp] theorem fromByte_toByte (v : Verb) : fromByte v.toByte = some v := by
  cases v <;> rfl

end Verb

/-! ### Packet headers -/

/-- The 28-byte packet header. The flags byte is two flag bits, three bits of
cipher suite and three of hop count. -/
structure PacketHeader where
  iv : ByteVec 8
  dest : ByteVec 5
  source : ByteVec 5
  flags : UInt8
  mac : ByteVec 8
  verb : UInt8
  deriving DecidableEq

namespace PacketHeader

/-- The header in front of `data`, whatever its length. -/
def read (data : Bytes) : PacketHeader where
  iv := fieldAt 8 data 0
  dest := fieldAt 5 data 8
  source := fieldAt 5 data 13
  flags := byteAt data 18
  mac := fieldAt 8 data 19
  verb := byteAt data 27

def fromBytes (data : Bytes) : Option PacketHeader :=
  if data.length < Constants.minPacketLength then none else some (read data)

def toBytes (h : PacketHeader) : Bytes :=
  h.iv.toBytes ++ (h.dest.toBytes ++ (h.source.toBytes ++ (h.flags :: (h.mac.toBytes ++ [h.verb]))))

def cipherSuite (h : PacketHeader) : UInt8 := (h.flags >>> 3) &&& 0x07
def hops (h : PacketHeader) : UInt8 := h.flags &&& 0x07
def packetId (h : PacketHeader) : UInt64 := ofBe64 h.iv.toBytes

@[simp] theorem length_toBytes (h : PacketHeader) : h.toBytes.length = 28 := by simp [toBytes]

/-- A header reads back. -/
@[simp] theorem read_toBytes (h : PacketHeader) (rest : Bytes) : read (h.toBytes ++ rest) = h := by
  cases h
  simp [read, toBytes, byteAt_append, fieldAt_append_right]

/-- Filling the MAC field changes only that field. -/
theorem withMac_toBytes (h : PacketHeader) (mac : ByteVec 8) (rest : Bytes) :
    Salsa.withMac (h.toBytes ++ rest) mac = { h with mac }.toBytes ++ rest := by
  have hfront : (h.iv.toBytes ++ (h.dest.toBytes ++ (h.source.toBytes ++ [h.flags]))).length =
      Salsa.packetMacOffset := by
    simp [Salsa.packetMacOffset]
  have hsplit : h.toBytes ++ rest =
      (h.iv.toBytes ++ (h.dest.toBytes ++ (h.source.toBytes ++ [h.flags]))) ++
        (h.mac.toBytes ++ (h.verb :: rest)) := by
    simp [toBytes]
  have hbody : Salsa.body (h.toBytes ++ rest) = h.verb :: rest := by
    rw [hsplit, ← List.append_assoc, Salsa.body]
    exact List.drop_left' (by simp [Salsa.packetVerbOffset])
  rw [Salsa.withMac, hbody, hsplit, List.take_left' hfront]
  simp [toBytes]

end PacketHeader

/-! ### Fragment headers -/

/-- The 16-byte fragment header: a total and a number share one byte. -/
structure FragmentHeader where
  packetId : ByteVec 8
  dest : ByteVec 5
  indicator : UInt8
  fragmentInfo : UInt8
  hops : UInt8
  deriving DecidableEq

namespace FragmentHeader

def read (data : Bytes) : FragmentHeader where
  packetId := fieldAt 8 data 0
  dest := fieldAt 5 data 8
  indicator := byteAt data 13
  fragmentInfo := byteAt data 14
  hops := byteAt data 15

def fromBytes (data : Bytes) : Option FragmentHeader :=
  if data.length < Constants.minFragmentLength then none else some (read data)

def toBytes (h : FragmentHeader) : Bytes :=
  h.packetId.toBytes ++ (h.dest.toBytes ++ [h.indicator, h.fragmentInfo, h.hops])

def totalFragments (h : FragmentHeader) : UInt8 := (h.fragmentInfo >>> 4) &&& 0x0f
def fragmentNumber (h : FragmentHeader) : UInt8 := h.fragmentInfo &&& 0x0f
def packetIdU64 (h : FragmentHeader) : UInt64 := ofBe64 h.packetId.toBytes

@[simp] theorem length_toBytes (h : FragmentHeader) : h.toBytes.length = 16 := by simp [toBytes]

@[simp] theorem read_toBytes (h : FragmentHeader) (rest : Bytes) : read (h.toBytes ++ rest) = h := by
  have h8 : h.packetId.toBytes.length = 8 := by simp
  have h5 : (h.packetId.toBytes ++ h.dest.toBytes).length = 13 := by simp
  have htail : ∀ i, byteAt (h.toBytes ++ rest) (13 + i) =
      byteAt ([h.indicator, h.fragmentInfo, h.hops] ++ rest) i := by
    intro i
    have hsplit : h.toBytes ++ rest = (h.packetId.toBytes ++ h.dest.toBytes) ++
        ([h.indicator, h.fragmentInfo, h.hops] ++ rest) := by simp [toBytes]
    rw [hsplit, byteAt_append_right _ _ _ (by omega), h5, Nat.add_sub_cancel_left]
  have hid : fieldAt 8 (h.toBytes ++ rest) 0 = h.packetId := by
    simp [toBytes]
  have hdest : fieldAt 5 (h.toBytes ++ rest) 8 = h.dest := by
    simpa [toBytes] using fieldAt_append h.packetId.toBytes h.dest _ 8 h8
  simp [read, hid, hdest, htail 0, htail 1, htail 2]

end FragmentHeader

/-- Whether a datagram is a fragment: byte 13, where a packet has the first byte of
its source address, is the indicator. -/
def isFragment (data : Bytes) : Bool :=
  Constants.minFragmentLength ≤ data.length ∧ byteAt data 13 = Constants.fragmentIndicator

end ManyTier
