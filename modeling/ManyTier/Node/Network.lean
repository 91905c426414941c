import Mathlib.Data.List.Sort
import ManyTier.Protocol.Frames
import ManyTier.Protocol.NetworkConfig

/-! Network membership: the member directory, certificates and what they are
checked for. -/
namespace ManyTier

abbrev Ipv4Addr := ByteVec 4
abbrev Ipv6Addr := ByteVec 16

/-! ### Ethernet -/

namespace Ethernet

def ethertypeIpv4 : UInt16 := 0x0800
def ethertypeIpv6 : UInt16 := 0x86dd
def ethertypeArp : UInt16 := 0x0806
def broadcastMac : Mac := ⟨[0xff, 0xff, 0xff, 0xff, 0xff, 0xff], rfl⟩

/-- The virtual MAC of an address on a network: locally administered, unicast, and
never with the first octet 0x52. -/
def deriveMac (ztAddress : ByteVec 5) (networkId : UInt64) : Mac :=
  let a := (networkId.toUInt8 &&& 0xfe) ||| 0x02
  let first : UInt8 := if a = 0x52 then 0x32 else a
  let m := (first.toUInt64 <<< 40) ||| UInt64.ofNat (ofBe ztAddress.toBytes)
  let m := m ^^^ (((networkId >>> 8) &&& 0xff) <<< 32)
  let m := m ^^^ (((networkId >>> 16) &&& 0xff) <<< 24)
  let m := m ^^^ (((networkId >>> 24) &&& 0xff) <<< 16)
  let m := m ^^^ (((networkId >>> 32) &&& 0xff) <<< 8)
  let m := m ^^^ ((networkId >>> 40) &&& 0xff)
  ⟨[(m >>> 40).toUInt8, (m >>> 32).toUInt8, (m >>> 24).toUInt8, (m >>> 16).toUInt8,
    (m >>> 8).toUInt8, m.toUInt8], rfl⟩

end Ethernet

/-- The controller of a network: the upper 40 bits of its id. -/
def controllerAddressFromNetworkId (networkId : UInt64) : ByteVec 5 := fieldAt 5 (be64 networkId) 0

/-! ### Members -/

structure NetworkMember where
  ztAddress : ByteVec 5
  mac : Mac
  ipv4 : Option (Ipv4Addr × UInt8)
  ipv6 : Option (Ipv6Addr × UInt8)
  authorized : Bool
  deriving DecidableEq

structure NetworkMembership where
  networkId : UInt64
  members : List NetworkMember
  ourCom : Option CertificateOfMembership
  peerComs : List (ByteVec 5 × CertificateOfMembership)
  mtu : UInt16
  assignedIpv4 : Option Ipv4Addr
  assignedIpv6 : Option Ipv6Addr
  routes : List Bytes
  pendingConfigRequest : Bool
  lastConfigRequest : UInt64
  lastMulticastLike : UInt64
  lastMulticastGather : UInt64
  deriving DecidableEq

/-! ### Certificates -/

/-- The distance of two numbers. -/
def absDiff (a b : UInt64) : UInt64 := if a ≤ b then b - a else a - b

/-- Each of our qualifiers but the issued-to one is in theirs, close enough. -/
def peerComAgreesWith (ours theirs : CertificateOfMembership) : Bool :=
  ours.qualifiers.all fun our =>
    our.id = 2 ||
      match theirs.qualifiers.find? fun other => other.id = our.id with
      | none => false
      | some other => absDiff our.value other.value ≤ our.maxDelta

/-- What a certificate's signature covers: its qualifiers by ascending id. -/
def comSignedData (com : CertificateOfMembership) : Bytes :=
  (com.qualifiers.insertionSort fun a b => a.id ≤ b.id).flatMap
    CertificateOfMembership.serializeQualifier

def comVerifySignature (pr : Primitives) (com : CertificateOfMembership)
    (signerVerifyingKey : ByteVec 32) : Bool :=
  (Signing.verify pr signerVerifyingKey (comSignedData com) com.signature).isOk

namespace NetworkMembership

def comRefreshMarginCap : UInt64 := 60000

def new (networkId : UInt64) (mtu : UInt16) : NetworkMembership where
  networkId
  members := []
  ourCom := none
  peerComs := []
  mtu
  assignedIpv4 := none
  assignedIpv6 := none
  routes := []
  pendingConfigRequest := false
  lastConfigRequest := 0
  lastMulticastLike := 0
  lastMulticastGather := 0

def lookupIpv4 (n : NetworkMembership) (ip : Ipv4Addr) : Option NetworkMember :=
  n.members.find? fun m => m.ipv4.map Prod.fst = some ip

def lookupIpv6 (n : NetworkMembership) (ip : Ipv6Addr) : Option NetworkMember :=
  n.members.find? fun m => m.ipv6.map Prod.fst = some ip

def ourMac (n : NetworkMembership) (ourZtAddress : ByteVec 5) : Mac :=
  Ethernet.deriveMac ourZtAddress n.networkId

/-- Whether a peer's certificate agrees with ours and is the controller's. The
address of the peer is not looked at. -/
def verifyPeerCom (pr : Primitives) (n : NetworkMembership) (_peerAddress : ByteVec 5)
    (peerCom : CertificateOfMembership) (controllerAddress : ByteVec 5)
    (controllerVerifyingKey : Option (ByteVec 32)) : Bool :=
  match n.ourCom with
  | none => false
  | some our =>
    peerComAgreesWith our peerCom &&
      match controllerVerifyingKey with
      | none => false
      | some key => peerCom.signerAddress = controllerAddress && comVerifySignature pr peerCom key

def ourComTimestampQualifier (n : NetworkMembership) : Option ComQualifier :=
  n.ourCom.bind fun com => com.qualifiers.find? fun q => q.id = 0

/-- A quarter of the certificate's lifetime, between a second and a minute. -/
def ourComRefreshMargin (n : NetworkMembership) : Option UInt64 :=
  n.ourComTimestampQualifier.map fun q => max 1000 (min (q.maxDelta / 4) comRefreshMarginCap)

/-- Addition that stops at the largest number. -/
def satAdd (a b : UInt64) : UInt64 := UInt64.ofNat (min (2 ^ 64 - 1) (a.toNat + b.toNat))

def ourComRefreshDue (n : NetworkMembership) (now : UInt64) : Bool :=
  match n.ourComTimestampQualifier with
  | none => n.ourCom.isNone
  | some q => satAdd q.value (satSub q.maxDelta (n.ourComRefreshMargin.getD 0)) ≤ now

end NetworkMembership

/-! ### ARP -/

structure ArpPacket where
  hwType : UInt16
  protoType : UInt16
  hwLen : UInt8
  protoLen : UInt8
  operation : UInt16
  senderHw : Mac
  senderProto : ByteVec 4
  targetHw : Mac
  targetProto : ByteVec 4
  deriving DecidableEq

namespace ArpPacket

def opRequest : UInt16 := 1
def opReply : UInt16 := 2

/-- IPv4 over Ethernet only. -/
def parse (data : Bytes) : Option ArpPacket :=
  if data.length < 28 then none
  else if u16At data 0 ≠ 1 ∨ u16At data 2 ≠ 0x0800 ∨ byteAt data 4 ≠ 6 ∨ byteAt data 5 ≠ 4 then none
  else some { hwType := u16At data 0, protoType := u16At data 2, hwLen := byteAt data 4
              protoLen := byteAt data 5, operation := u16At data 6, senderHw := fieldAt 6 data 8
              senderProto := fieldAt 4 data 14, targetHw := fieldAt 6 data 18
              targetProto := fieldAt 4 data 24 }

def serialize (a : ArpPacket) : Bytes :=
  be16 a.hwType ++ (be16 a.protoType ++ (a.hwLen :: a.protoLen :: (be16 a.operation ++
    (a.senderHw.toBytes ++ (a.senderProto.toBytes ++ (a.targetHw.toBytes ++ a.targetProto.toBytes))))))

/-- A request answered from the member directory. -/
def handleArpRequest (arp : ArpPacket) (membership : NetworkMembership) : Option ArpPacket :=
  if arp.operation ≠ opRequest then none
  else (membership.lookupIpv4 arp.targetProto).map fun member =>
    { hwType := 1, protoType := 0x0800, hwLen := 6, protoLen := 4, operation := opReply
      senderHw := member.mac, senderProto := arp.targetProto
      targetHw := arp.senderHw, targetProto := arp.senderProto }

end ArpPacket

end ManyTier
