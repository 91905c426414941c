import ManyTier.Lib.Run
import ManyTier.Protocol.InetAddress

/-! Planets and moons: signed lists of root servers with their endpoints. -/
namespace ManyTier

inductive WorldType where
  | null
  | planet
  | moon
  deriving Repr, DecidableEq

namespace WorldType

def fromByte (b : UInt8) : Option WorldType :=
  if b = 0 then some null else if b = 1 then some planet else if b = 127 then some moon else none

def toByte : WorldType → UInt8
  | null => 0
  | planet => 1
  | moon => 127

end WorldType

structure WorldRoot where
  identity : Identity
  endpoints : List InetAddress
  deriving DecidableEq

structure World where
  worldType : WorldType
  id : UInt64
  timestamp : UInt64
  signingKey : ByteVec 64
  signature : ByteVec 96
  roots : List WorldRoot
  dictData : Option Bytes
  deriving DecidableEq

namespace World

def startSentinel : Bytes := List.replicate 8 0x7f
def endSentinel : Bytes := List.replicate 8 0xf7
def minSize : Nat := 194
def maxRoots : Nat := 4
def maxEndpointsPerRoot : Nat := 32
def signingBufferSize : Nat := 4096

/-- `count` endpoints from `pos` on, none of them past `endPos`. -/
def endpointsOf (data : Bytes) (endPos : Nat) :
    Nat → Nat → Except ProtocolError (List InetAddress × Nat)
  | 0, pos => .ok ([], pos)
  | count + 1, pos =>
    if endPos ≤ pos then .error (.tooShort (pos + 1) endPos)
    else do
      let (addr, consumed) ← InetAddress.deserialize ((data.take endPos).drop pos)
      let (rest, pos) ← endpointsOf data endPos count (pos + consumed)
      return (addr :: rest, pos)

def rootsOf (data : Bytes) (endPos : Nat) : Nat → Nat → Except ProtocolError (List WorldRoot × Nat)
  | 0, pos => .ok ([], pos)
  | count + 1, pos =>
    if endPos ≤ pos then .error (.tooShort (pos + 1) endPos)
    else do
      let (identity, consumed) ← IdentityWire.deserializeIdentity (data.drop pos)
      let pos := pos + consumed
      if endPos ≤ pos then throw (.tooShort (pos + 1) endPos)
      let endpointCount := (byteAt data pos).toNat
      if maxEndpointsPerRoot < endpointCount then throw .invalidPacket
      let (endpoints, pos) ← endpointsOf data endPos endpointCount (pos + 1)
      let (rest, pos) ← rootsOf data endPos count pos
      return (⟨identity, endpoints⟩ :: rest, pos)

/-- A moon ends with a dictionary behind its length. -/
def dictOf (data : Bytes) (endPos pos : Nat) : Except ProtocolError Bytes :=
  if endPos < pos + 2 then .error (.tooShort (pos + 2) endPos)
  else
    let dictLen := (u16At data pos).toNat
    if endPos < pos + 2 + dictLen then .error (.tooShort (pos + 2 + dictLen) endPos)
    else .ok (slice data (pos + 2) dictLen)

def deserialize (data : Bytes) : Except ProtocolError World :=
  if data.length < minSize then .error (.tooShort minSize data.length)
  else if data.take 8 ≠ startSentinel then .error .invalidPacket
  else if data.drop (data.length - 8) ≠ endSentinel then .error .invalidPacket
  else
    match WorldType.fromByte (byteAt data 8) with
    | none => .error .invalidPacket
    | some worldType =>
      let rootCount := (byteAt data 185).toNat
      if maxRoots < rootCount then .error .invalidPacket
      else do
        let endPos := data.length - 8
        let (roots, pos) ← rootsOf data endPos rootCount 186
        let dictData ← if worldType = .moon then some <$> dictOf data endPos pos else pure none
        return { worldType, id := u64At data 9, timestamp := u64At data 17
                 signingKey := fieldAt 64 data 25, signature := fieldAt 96 data 89
                 roots, dictData }

def serializeRoot (r : WorldRoot) : Bytes :=
  IdentityWire.serializeIdentityPublic r.identity ++
    (UInt8.ofNat r.endpoints.length :: r.endpoints.flatMap InetAddress.serialize)

def serializeRoots (w : World) : Bytes :=
  UInt8.ofNat w.roots.length :: w.roots.flatMap serializeRoot

def serializeDict (w : World) : Bytes :=
  if w.worldType = .moon then
    let dict := w.dictData.getD []
    be16 (UInt16.ofNat dict.length) ++ dict
  else []

def serialize (w : World) : Bytes :=
  startSentinel ++ (w.worldType.toByte :: (be64 w.id ++ (be64 w.timestamp ++ (w.signingKey.toBytes ++
    (w.signature.toBytes ++ (w.serializeRoots ++ (w.serializeDict ++ endSentinel)))))))

/-- What the signature covers: everything between the sentinels but itself. -/
def signedPortion (w : World) : Bytes :=
  w.worldType.toByte :: (be64 w.id ++ (be64 w.timestamp ++ (w.signingKey.toBytes ++
    (w.serializeRoots ++ w.serializeDict))))

/-- The signature checked against the key the world itself carries. The signed
portion is written to a fixed buffer first. -/
def verifySignature (pr : Primitives) (w : World) : Except Fault (Except ProtocolError Unit) :=
  let key : ByteVec 32 := fieldAt 32 w.signingKey.toBytes 32
  if ! pr.ed25519Point key then .ok (.error .invalidPacket)
  else if signingBufferSize < w.signedPortion.length then .error .panic
  else
    match Signing.verify pr key w.signedPortion w.signature with
    | .ok () => .ok (.ok ())
    | .error e => .ok (.error (.crypto e))

end World

end ManyTier
