import ManyTier.Protocol.Header

/-! Payloads of the verbs that carry Ethernet frames and multicast subscriptions. -/
namespace ManyTier

abbrev Mac := ByteVec 6

/-! ### FRAME and EXT_FRAME -/

structure FramePayload where
  networkId : UInt64
  ethertype : UInt16
  payload : Bytes
  deriving DecidableEq

def FramePayload.parse (data : Bytes) : Except ProtocolError FramePayload :=
  if data.length < 10 then .error (.tooShort 10 data.length)
  else .ok ⟨u64At data 0, u16At data 8, data.drop 10⟩

structure ExtFramePayload where
  networkId : UInt64
  flags : UInt8
  destMac : Mac
  srcMac : Mac
  ethertype : UInt16
  payload : Bytes
  deriving DecidableEq

namespace ExtFramePayload

def parse (data : Bytes) : Except ProtocolError ExtFramePayload :=
  if data.length < 23 then .error (.tooShort 23 data.length)
  else .ok { networkId := u64At data 0, flags := byteAt data 8, destMac := fieldAt 6 data 9
             srcMac := fieldAt 6 data 15, ethertype := u16At data 21, payload := data.drop 23 }

def serialize (p : ExtFramePayload) : Bytes :=
  be64 p.networkId ++ (p.flags :: (p.destMac.toBytes ++ (p.srcMac.toBytes ++
    (be16 p.ethertype ++ p.payload))))

theorem parse_serialize (p : ExtFramePayload) : parse p.serialize = .ok p := by
  have hlen : ¬ p.serialize.length < 23 := by
    simp [serialize]
    omega
  unfold parse
  rw [if_neg hlen]
  simp [serialize, byteAt_append, u16At_append, fieldAt_append_right, drop_append]

end ExtFramePayload

/-! ### Multicast -/

structure MulticastGroup where
  networkId : UInt64
  mac : Mac
  adi : UInt32
  deriving DecidableEq

namespace MulticastLikePayload

def serialize (groups : List MulticastGroup) : Bytes :=
  groups.flatMap fun g => be64 g.networkId ++ (g.mac.toBytes ++ be32 g.adi)

def deserialize (data : Bytes) : Except ProtocolError (List MulticastGroup) :=
  if data.length % 18 ≠ 0 then .error .invalidPacket
  else .ok ((List.range (data.length / 18)).map fun i =>
    ⟨u64At data (i * 18), fieldAt 6 data (i * 18 + 8), u32At data (i * 18 + 14)⟩)

end MulticastLikePayload

structure MulticastGatherPayload where
  networkId : UInt64
  flags : UInt8
  mac : Mac
  adi : UInt32
  gatherLimit : UInt32
  com : Option Bytes
  deriving DecidableEq

namespace MulticastGatherPayload

def serialize (p : MulticastGatherPayload) : Bytes :=
  be64 p.networkId ++ (p.flags :: (p.mac.toBytes ++ (be32 p.adi ++ (be32 p.gatherLimit ++
    p.com.getD []))))

def deserialize (data : Bytes) : Except ProtocolError MulticastGatherPayload :=
  if data.length < 23 then .error (.tooShort 23 data.length)
  else .ok { networkId := u64At data 0, flags := byteAt data 8, mac := fieldAt 6 data 9
             adi := u32At data 15, gatherLimit := u32At data 19
             com := if 23 < data.length then some (data.drop 23) else none }

end MulticastGatherPayload

structure MulticastFramePayload where
  networkId : UInt64
  flags : UInt8
  gatherLimit : Option UInt32
  sourceMac : Option Mac
  destMac : Mac
  adi : UInt32
  ethertype : UInt16
  payload : Bytes
  deriving DecidableEq

namespace MulticastFramePayload

/-- Two flag bits say whether a gather limit and a source MAC are there. -/
def parse (data : Bytes) : Except ProtocolError MulticastFramePayload :=
  if data.length < 9 then .error (.tooShort 9 data.length)
  else
    let flags := byteAt data 8
    let hasLimit := flags &&& 0x02 ≠ 0
    let hasSource := flags &&& 0x04 ≠ 0
    let afterLimit := if hasLimit then 13 else 9
    let afterSource := if hasSource then afterLimit + 6 else afterLimit
    if hasLimit ∧ data.length < 13 then .error (.tooShort 13 data.length)
    else if hasSource ∧ data.length < afterLimit + 6 then
      .error (.tooShort (afterLimit + 6) data.length)
    else if data.length < afterSource + 12 then .error (.tooShort (afterSource + 12) data.length)
    else .ok { networkId := u64At data 0, flags
               gatherLimit := if hasLimit then some (u32At data 9) else none
               sourceMac := if hasSource then some (fieldAt 6 data afterLimit) else none
               destMac := fieldAt 6 data afterSource
               adi := u32At data (afterSource + 6)
               ethertype := u16At data (afterSource + 10)
               payload := data.drop (afterSource + 12) }

def serialize (p : MulticastFramePayload) : Bytes :=
  be64 p.networkId ++ (p.flags :: ((p.gatherLimit.map be32).getD [] ++
    ((p.sourceMac.map ByteVec.toBytes).getD [] ++ (p.destMac.toBytes ++ (be32 p.adi ++
      (be16 p.ethertype ++ p.payload))))))

end MulticastFramePayload

end ManyTier
