import ManyTier.Protocol.InetAddress

/-! Payloads of the verbs that keep peers and paths: HELLO, OK, WHOIS, RENDEZVOUS,
PUSH_DIRECT_PATHS, ERROR and the small reports. A decoder gets the bytes after the
verb; a `tooShort` error says how many bytes it wanted and how many it got. -/
namespace ManyTier

/-! ### HELLO -/

structure HelloPayload where
  protocolVersion : UInt8
  majorVersion : UInt8
  minorVersion : UInt8
  revision : UInt16
  timestamp : UInt64
  identity : Identity
  destAddress : InetAddress
  planetWorldId : UInt64
  planetWorldTimestamp : UInt64
  moonRecords : List (UInt64 × UInt64)
  deriving DecidableEq

namespace HelloPayload

def advertisedProtocolVersion : UInt8 := 11
def worldIdEarth : UInt64 := 149604618

def new (identity : Identity) (timestamp : UInt64) (destAddress : InetAddress) : HelloPayload where
  protocolVersion := advertisedProtocolVersion
  majorVersion := 1
  minorVersion := 14
  revision := 2
  timestamp
  identity
  destAddress
  planetWorldId := worldIdEarth
  planetWorldTimestamp := 0
  moonRecords := []

def serialize (p : HelloPayload) : Bytes :=
  p.protocolVersion :: p.majorVersion :: p.minorVersion :: (be16 p.revision ++ (be64 p.timestamp ++
    (IdentityWire.serializeIdentityPublic p.identity ++ (p.destAddress.serialize ++
      (be64 p.planetWorldId ++ (be64 p.planetWorldTimestamp ++
        p.moonRecords.flatMap fun r => be64 r.1 ++ be64 r.2))))))

/-- Whole 16-byte records; what is left over is not read. -/
def moonRecordsOf : Nat → Bytes → List (UInt64 × UInt64)
  | 0, _ => []
  | n + 1, data => (u64At data 0, u64At data 8) :: moonRecordsOf n (data.drop 16)

def deserialize (data : Bytes) : Except ProtocolError (HelloPayload × Nat) :=
  if data.length < 13 then .error (.tooShort 13 data.length)
  else do
    let (identity, idConsumed) ← IdentityWire.deserializeIdentity (data.drop 13)
    let pos := 13 + idConsumed
    let (destAddress, addrConsumed) ← InetAddress.deserialize (data.drop pos)
    let pos := pos + addrConsumed
    if data.length < pos + 16 then throw (.tooShort (pos + 16) data.length)
    let records := (data.length - (pos + 16)) / 16
    return ({ protocolVersion := byteAt data 0
              majorVersion := byteAt data 1
              minorVersion := byteAt data 2
              revision := u16At data 3
              timestamp := u64At data 5
              identity
              destAddress
              planetWorldId := u64At data pos
              planetWorldTimestamp := u64At data (pos + 8)
              moonRecords := moonRecordsOf records (data.drop (pos + 16)) },
      pos + 16 + 16 * records)

end HelloPayload

/-! ### OK -/

inductive OkSubPayload where
  | hello (timestampEcho : UInt64) (protocolVersion majorVersion minorVersion : UInt8)
      (revision : UInt16) (worldUpdate : Option Bytes)
  | whois (identities : List Identity)
  | generic (data : Bytes)
  deriving DecidableEq

structure OkPayload where
  inReVerb : Verb
  inRePacketId : UInt64
  subPayload : OkSubPayload
  deriving DecidableEq

namespace OkPayload

def serializeSub : OkSubPayload → Bytes
  | .hello timestampEcho protocolVersion majorVersion minorVersion revision worldUpdate =>
    be64 timestampEcho ++ (protocolVersion :: majorVersion :: minorVersion ::
      (be16 revision ++ worldUpdate.getD []))
  | .whois identities => identities.flatMap IdentityWire.serializeIdentityPublic
  | .generic data => data

def serialize (p : OkPayload) : Bytes :=
  p.inReVerb.toByte :: (be64 p.inRePacketId ++ serializeSub p.subPayload)

/-- Identities until the bytes are used up. Each takes at least 71 bytes, so as many
turns as there are bytes are enough. -/
def identitiesOf : Nat → Bytes → Except ProtocolError (List Identity)
  | 0, _ => .ok []
  | fuel + 1, data =>
    if data.isEmpty then .ok []
    else do
      let (identity, consumed) ← IdentityWire.deserializeIdentity data
      return identity :: (← identitiesOf fuel (data.drop consumed))

def deserialize (data : Bytes) : Except ProtocolError OkPayload :=
  if data.length < 9 then .error (.tooShort 9 data.length)
  else
    match Verb.fromByte (byteAt data 0) with
    | none => .error (.invalidVerb (byteAt data 0))
    | some inReVerb =>
      let inRePacketId := u64At data 1
      let sub := data.drop 9
      match inReVerb with
      | .hello =>
        if sub.length < 13 then .error (.tooShort 22 data.length)
        else
          let worldUpdate := if 13 < sub.length then some (sub.drop 13) else none
          .ok { inReVerb, inRePacketId, subPayload := .hello (u64At sub 0) (byteAt sub 8)
                  (byteAt sub 9) (byteAt sub 10) (u16At sub 11) worldUpdate }
      | .whois => do
        return { inReVerb, inRePacketId, subPayload := .whois (← identitiesOf sub.length sub) }
      | _ => .ok { inReVerb, inRePacketId, subPayload := .generic sub }

/-- A payload that is neither a HELLO nor a WHOIS answer reads back as it was written. -/
theorem deserialize_serialize_generic (verb : Verb) (packetId : UInt64) (data : Bytes)
    (hhello : verb ≠ .hello) (hwhois : verb ≠ .whois) :
    deserialize (serialize ⟨verb, packetId, .generic data⟩) = .ok ⟨verb, packetId, .generic data⟩ := by
  have hlen : ¬ (serialize ⟨verb, packetId, .generic data⟩).length < 9 := by
    simp [serialize, serializeSub]
  unfold deserialize
  rw [if_neg hlen]
  cases verb <;> first | exact absurd rfl hhello | exact absurd rfl hwhois |
    simp [serialize, serializeSub]

end OkPayload

/-! ### WHOIS -/

namespace WhoisRequest

def serialize (addresses : List (ByteVec 5)) : Bytes := addresses.flatMap ByteVec.toBytes

/-- As many whole addresses as there are; a partial one at the end is ignored. -/
def deserialize (data : Bytes) : List (ByteVec 5) :=
  (List.range (data.length / 5)).map fun i => fieldAt 5 data (i * 5)

end WhoisRequest

/-! ### RENDEZVOUS and PUSH_DIRECT_PATHS -/

/-- An address behind a type byte and a length byte; the length decides. -/
def serializeTypedAddress : InetAddress → Bytes
  | .v4 ip port => 4 :: 6 :: (ip.toBytes ++ be16 port)
  | .v6 ip port => 6 :: 18 :: (ip.toBytes ++ be16 port)
  | .null => [0, 0]

def typedAddressOf (data : Bytes) (offset addrLen : Nat) : Except ProtocolError InetAddress :=
  if addrLen = 6 then .ok (.v4 (fieldAt 4 data offset) (u16At data (offset + 4)))
  else if addrLen = 18 then .ok (.v6 (fieldAt 16 data offset) (u16At data (offset + 16)))
  else if addrLen = 0 then .ok .null
  else .error .invalidPacket

structure RendezvousPayload where
  flags : UInt8
  peerAddress : ByteVec 5
  address : InetAddress
  deriving DecidableEq

namespace RendezvousPayload

def serialize (p : RendezvousPayload) : Bytes :=
  p.flags :: (p.peerAddress.toBytes ++ serializeTypedAddress p.address)

def deserialize (data : Bytes) : Except ProtocolError RendezvousPayload :=
  if data.length < 8 then .error (.tooShort 8 data.length)
  else
    let addrLen := (byteAt data 7).toNat
    if data.length < 8 + addrLen then .error (.tooShort (8 + addrLen) data.length)
    else do
      return { flags := byteAt data 0, peerAddress := fieldAt 5 data 1
               address := ← typedAddressOf data 8 addrLen }

end RendezvousPayload

structure DirectPath where
  flags : UInt16
  address : InetAddress
  deriving DecidableEq

namespace PushDirectPathsPayload

def serialize (paths : List DirectPath) : Bytes :=
  be16 (UInt16.ofNat paths.length) ++
    paths.flatMap fun p => be16 p.flags ++ (be16 0 ++ serializeTypedAddress p.address)

/-- `count` paths from `offset` on; extended characteristics are skipped. -/
def pathsOf (data : Bytes) : Nat → Nat → Except ProtocolError (List DirectPath)
  | 0, _ => .ok []
  | count + 1, offset =>
    if data.length < offset + 4 then .error (.tooShort (offset + 4) data.length)
    else
      let flags := u16At data offset
      let offset := offset + 4 + (u16At data (offset + 2)).toNat
      if data.length < offset + 2 then .error (.tooShort (offset + 2) data.length)
      else
        let addrLen := (byteAt data (offset + 1)).toNat
        let offset := offset + 2
        if data.length < offset + addrLen then .error (.tooShort (offset + addrLen) data.length)
        else do
          let address ← typedAddressOf data offset addrLen
          return ⟨flags, address⟩ :: (← pathsOf data count (offset + addrLen))

def deserialize (data : Bytes) : Except ProtocolError (List DirectPath) :=
  if data.length < 2 then .error (.tooShort 2 data.length)
  else pathsOf data (u16At data 0).toNat 2

end PushDirectPathsPayload

/-! ### ERROR -/

inductive ErrorCode where
  | none
  | invalidRequest
  | badProtocolVersion
  | objectNotFound
  | identityCollision
  | unsupportedOperation
  | needMembershipCertificate
  | networkAccessDenied
  | unwantedMulticast
  | networkAuthenticationRequired
  deriving Repr, DecidableEq

def ErrorCode.fromByte (b : UInt8) : Option ErrorCode :=
  match b.toNat with
  | 0x00 => some .none
  | 0x01 => some .invalidRequest
  | 0x02 => some .badProtocolVersion
  | 0x03 => some .objectNotFound
  | 0x04 => some .identityCollision
  | 0x05 => some .unsupportedOperation
  | 0x06 => some .needMembershipCertificate
  | 0x07 => some .networkAccessDenied
  | 0x08 => some .unwantedMulticast
  | 0x09 => some .networkAuthenticationRequired
  | _ => Option.none

structure ErrorPayload where
  inReVerb : Verb
  inRePacketId : UInt64
  errorCode : ErrorCode
  payload : Bytes
  deriving DecidableEq

def ErrorPayload.deserialize (data : Bytes) : Except ProtocolError ErrorPayload :=
  if data.length < 10 then .error (.tooShort 10 data.length)
  else
    match Verb.fromByte (byteAt data 0) with
    | none => .error (.invalidVerb (byteAt data 0))
    | some inReVerb =>
      match ErrorCode.fromByte (byteAt data 9) with
      | none => .error .invalidPacket
      | some errorCode =>
        .ok { inReVerb, inRePacketId := u64At data 1, errorCode, payload := data.drop 10 }

/-! ### Reports -/

/-- ACK: how many bytes were received. -/
def AckPayload.deserialize (data : Bytes) : Except ProtocolError UInt32 :=
  if data.length < 4 then .error (.tooShort 4 data.length) else .ok (u32At data 0)

structure QosRecord where
  packetId : UInt64
  sojournTime : UInt16
  deriving DecidableEq

def QosMeasurementPayload.deserialize (data : Bytes) : Except ProtocolError (List QosRecord) :=
  if data.length % 10 ≠ 0 then .error .invalidPacket
  else .ok ((List.range (data.length / 10)).map fun i =>
    ⟨u64At data (i * 10), u16At data (i * 10 + 8)⟩)

structure UserMessagePayload where
  typeId : UInt64
  data : Bytes
  deriving DecidableEq

def UserMessagePayload.deserialize (data : Bytes) : Except ProtocolError UserMessagePayload :=
  if data.length < 8 then .error (.tooShort 8 data.length) else .ok ⟨u64At data 0, data.drop 8⟩

def RemoteTracePayload.deserialize (data : Bytes) : Except ProtocolError Bytes :=
  if data.isEmpty then .error (.tooShort 1 0) else .ok data

/-- PATH_NEGOTIATION_REQUEST: a signed utility, here as its 16 bits. -/
def PathNegotiationRequestPayload.deserialize (data : Bytes) : Except ProtocolError UInt16 :=
  if data.length < 2 then .error (.tooShort 2 data.length) else .ok (u16At data 0)

end ManyTier
