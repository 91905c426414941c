import ManyTier.Crypto.Sample
import ManyTier.Protocol.Fragment
import ManyTier.Node.Multicast
import ManyTier.Node.Packets
import ManyTier.Node.Topology

/-! The node's state and the small operations its handlers share.

A node never performs I/O: it collects `NodeAction`s for the transport. `armored` is
a history of the packets it has armored and under which secret; no operation reads
it. -/
namespace ManyTier

inductive NodeAction where
  | sendTo (data : Bytes) (address : SocketAddr)
  | whoisNeeded (addresses : List (ByteVec 5))
  | destinationUnknown (networkId : UInt64)
  | frameReceived (networkId : UInt64) (srcMac destMac : Mac) (ethertype : UInt16) (payload : Bytes)
  | localReply (networkId : UInt64) (ethertype : UInt16) (payload : Bytes)
  | networkConfigured (networkId : UInt64) (dictData : Bytes)
  | networkConfigRequested (requesterAddress : ByteVec 5) (networkId : UInt64) (dictData : Bytes)
      (fromAddr : SocketAddr) (packetId : UInt64)
  | userMessageReceived (origin : ByteVec 5) (typeId : UInt64) (data : Bytes)
  | remoteTraceReceived (origin : ByteVec 5) (data : Bytes)
  | pathNegotiationReceived (origin : ByteVec 5) (utility : UInt16)
  deriving DecidableEq

structure PendingMulticastGather where
  packetId : UInt64
  requestedAt : UInt64
  group : MulticastGroup
  deriving DecidableEq

/-- A configuration being assembled from chunks: its bytes, which of them have been
received, and how many. -/
structure PendingNetworkConfig where
  networkId : UInt64
  configUpdateId : UInt64
  totalLength : Nat
  data : Bytes
  received : List Bool
  receivedBytes : Nat
  deriving DecidableEq

/-- An encrypted packet of a source that is not known yet. -/
structure PendingEncryptedPacket where
  source : ByteVec 5
  sender : SocketAddr
  packetId : UInt64
  receivedAt : UInt64
  data : Bytes
  deriving DecidableEq

/-- A packet as it was handed to the armor. -/
structure Armored where
  secret : Secret
  packet : Bytes
  deriving DecidableEq

structure Node where
  identity : Identity
  localAddresses : List SocketAddr
  topology : Topology
  reassembly : ReassemblyBuffer
  actions : List NodeAction
  nextPacketId : UInt64
  networks : List NetworkMembership
  multicastManager : MulticastManager
  pendingMulticastGathers : List PendingMulticastGather
  pendingNetworkConfigs : List PendingNetworkConfig
  pendingEncryptedPackets : List PendingEncryptedPacket
  armored : List Armored
  deriving DecidableEq

namespace Node

def pendingEncryptedPacketLimit : Nat := 32
def pendingEncryptedPacketTtl : UInt64 := 30000
def maxLocalAddresses : Nat := 8

/-- The counter's next value; zero is never an id. -/
def succPacketId (id : UInt64) : UInt64 := if id + 1 = 0 then 1 else id + 1

def new (identity : Identity) (planetData : Bytes) (initialPacketId : UInt64) :
    Except ProtocolError Node := do
  let planet ← World.deserialize planetData
  return { identity
           localAddresses := []
           topology := Topology.new.loadPlanet planet
           reassembly := .new 256
           actions := []
           nextPacketId := succPacketId initialPacketId
           networks := []
           multicastManager := .new
           pendingMulticastGathers := []
           pendingNetworkConfigs := []
           pendingEncryptedPackets := []
           armored := [] }

def address (n : Node) : ByteVec 5 := n.identity.address.bytes

def pushAction (n : Node) (a : NodeAction) : Node := { n with actions := n.actions ++ [a] }

def allocatePacketId (n : Node) : UInt64 × Node :=
  (n.nextPacketId, { n with nextPacketId := succPacketId n.nextPacketId })

def findNetwork (n : Node) (networkId : UInt64) : Option NetworkMembership :=
  n.networks.find? fun net => net.networkId = networkId

def modifyNetwork (n : Node) (networkId : UInt64) (f : NetworkMembership → NetworkMembership) : Node :=
  { n with networks := modifyFirst (fun net => net.networkId = networkId) f n.networks }

/-- A network already joined keeps its membership. -/
def joinNetwork (n : Node) (membership : NetworkMembership) : Node :=
  if n.networks.any fun net => net.networkId = membership.networkId then n
  else { n with
    multicastManager :=
      n.multicastManager.subscribe (arpMulticastGroup membership.networkId) n.address 0
    networks := n.networks ++ [membership] }

def modifyPeer (n : Node) (address : ByteVec 5) (f : Peer → Peer) : Node :=
  { n with topology := n.topology.modifyPeer address f }

/-- The session's secret, else the one agreed with the peer's identity. -/
def sharedSecretForPeer (pr : Primitives) (n : Node) (address : ByteVec 5) : Option Secret :=
  (n.topology.getPeer address).bind fun peer =>
    match peer.sharedSecret with
    | some secret => some secret
    | none => n.identity.secret.map fun ours =>
        KeyAgreement.keyAgree pr ours.dh peer.identity.publicKey.dh

def aesKeysForPeer (n : Node) (address : ByteVec 5) : Option (ByteVec 32 × ByteVec 32) :=
  (n.topology.getPeer address).bind Peer.aesKeys

/-- Whether this identity is the one held for its address. -/
def identityAlreadyValidated (n : Node) (identity : Identity) : Bool :=
  match n.topology.getPeer identity.address.bytes with
  | some peer => peer.identity.publicKey = identity.publicKey
  | none => false

/-! ### Sending -/

/-- A packet armored and sent. -/
def sendArmored (pr : Primitives) (n : Node) (secret : Secret) (packet : Bytes) (encrypt : Bool)
    (address : SocketAddr) : Node :=
  match Salsa.armorPacket pr secret packet encrypt with
  | .ok sealed => { n with
      actions := n.actions ++ [.sendTo sealed address]
      armored := n.armored ++ [⟨secret, packet⟩] }
  | .error _ => n

def planetWorldId (n : Node) : UInt64 :=
  (n.topology.planet.map World.id).getD HelloPayload.worldIdEarth

def planetWorldTimestamp (n : Node) : UInt64 := (n.topology.planet.map World.timestamp).getD 0

/-- A HELLO to an address; a peer not known is greeted under the zero secret. -/
def sendHello (pr : Primitives) (n : Node) (dest : ByteVec 5) (target : SocketAddr) (now : UInt64) :
    Node :=
  let secret := (n.sharedSecretForPeer pr dest).getD (ByteVec.zero 48)
  match RootManager.buildHello pr n.identity dest target now secret n.planetWorldId
      n.planetWorldTimestamp with
  | .ok packet => n.sendArmored pr secret packet false target
  | .error _ => n

/-- An encrypted packet with an id of the counter. -/
def sendEncrypted (pr : Primitives) (n : Node) (dest : ByteVec 5) (verb : Verb) (payload : Bytes)
    (secret : Secret) (address : SocketAddr) : Node :=
  let (packetId, n) := n.allocatePacketId
  n.sendArmored pr secret (encryptedVerbPacket packetId n.address dest verb payload) true address

end Node

/-! ### A node for worked examples -/

namespace Sample

def endpoint (host : UInt8) : SocketAddr := .v4 ⟨[0xc0, 0x00, 0x02, host], rfl⟩ 9993

def worldRoot (k : UInt8) (hosts : List UInt8) : WorldRoot :=
  ⟨{ identity k with secret := none }, hosts.map fun host => .fromSocketAddr (endpoint host)⟩

/-- Two roots, number 2 with two endpoints and number 3 with one. -/
def planet : World where
  worldType := .planet
  id := 149604618
  timestamp := 1
  signingKey := ByteVec.zero 64
  signature := ByteVec.zero 96
  roots := [worldRoot 2 [20, 21], worldRoot 3 [30]]
  dictData := none

/-- Number 1 with that planet, as it starts. -/
def start : Node where
  identity := identity 1
  localAddresses := []
  topology := Topology.new.loadPlanet planet
  reassembly := .new 256
  actions := []
  nextPacketId := 2
  networks := []
  multicastManager := .new
  pendingMulticastGathers := []
  pendingNetworkConfigs := []
  pendingEncryptedPackets := []
  armored := []

theorem new_start : Node.new (identity 1) planet.serialize 1 = .ok start := by
  have hplanet : World.deserialize planet.serialize = .ok planet := by decide +kernel
  simp only [Node.new, hplanet]
  rfl

/-- What party `k` sends to number 1: encrypted under the key they agree on. -/
def sentBy (k : UInt8) (packetId : UInt64) (verb : Verb) (payload : Bytes) : Bytes :=
  let secret := KeyAgreement.keyAgree primitives (key 1) (key k)
  match Salsa.armorPacket primitives secret (encryptedVerbPacket packetId (identity k).address.bytes
      (identity 1).address.bytes verb payload) true with
  | .ok sealed => sealed
  | .error _ => []

/-- A network of which root number 2 is the controller. -/
def networkId : UInt64 := 0x0a00000002000001

/-- The node once it has joined the network. -/
def joined : Node := start.joinNetwork (.new networkId 2800)

end Sample

end ManyTier
