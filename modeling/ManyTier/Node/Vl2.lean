import ManyTier.Lib.Run
import ManyTier.Node.State

/-! Ethernet frames over the virtual network.

Inbound frames are delivered when the sender's stored certificate is good
(`hasPeerCom`). Outbound frames are resolved through the member directory, sealed for
the member and cut to the network's MTU. -/
namespace ManyTier

namespace Node

/-- The verifying key held for the controller of a network. -/
def controllerVerifyingKey (pr : Primitives) (n : Node) (networkId : UInt64) : Option (ByteVec 32) :=
  (n.topology.getPeer (controllerAddressFromNetworkId networkId)).bind fun peer =>
    let key := peer.identity.publicKey.signing
    if pr.ed25519Point key then some key else none

end Node

namespace Vl2
variable (pr : Primitives)

/-- The certificate stored for a peer on a network. -/
def storedCom (network : NetworkMembership) (peerAddress : ByteVec 5) : Option CertificateOfMembership :=
  (network.peerComs.find? fun e => e.1 = peerAddress).map Prod.snd

/-- Whether the certificate stored for the peer verifies. -/
def hasPeerCom (n : Node) (networkId : UInt64) (peerAddress : ByteVec 5) : Bool :=
  match n.findNetwork networkId with
  | none => false
  | some network =>
    match storedCom network peerAddress with
    | none => false
    | some peerCom =>
      network.verifyPeerCom pr peerAddress peerCom (controllerAddressFromNetworkId networkId)
        (n.controllerVerifyingKey pr networkId)

/-! ### Inbound -/

/-- A frame delivered to the host, if its network is joined and its sender's
certificate verifies. -/
def deliverFrame (n : Node) (sender : ByteVec 5) (networkId : UInt64) (srcMac destMac : Mac)
    (ethertype : UInt16) (payload : Bytes) : Node :=
  if (n.findNetwork networkId).isSome && hasPeerCom pr n networkId sender then
    n.pushAction (.frameReceived networkId srcMac destMac ethertype payload)
  else n

/-- FRAME has no MACs: they are derived from the sender and from us. -/
def handleFrame (n : Node) (sender : ByteVec 5) (payloadData : Bytes) : Node :=
  match FramePayload.parse payloadData with
  | .error _ => n
  | .ok frame =>
    deliverFrame pr n sender frame.networkId (Ethernet.deriveMac sender frame.networkId)
      (Ethernet.deriveMac n.address frame.networkId) frame.ethertype frame.payload

def handleExtFrame (n : Node) (sender : ByteVec 5) (payloadData : Bytes) : Node :=
  match ExtFramePayload.parse payloadData with
  | .error _ => n
  | .ok ext =>
    deliverFrame pr n sender ext.networkId ext.srcMac ext.destMac ext.ethertype ext.payload

def handleMulticastFrame (n : Node) (sender : ByteVec 5) (payloadData : Bytes) : Node :=
  match MulticastFramePayload.parse payloadData with
  | .error _ => n
  | .ok mf =>
    deliverFrame pr n sender mf.networkId
      (mf.sourceMac.getD (Ethernet.deriveMac sender mf.networkId)) mf.destMac mf.ethertype mf.payload

/-- For each network listed, in the order of its first group, the sender's
subscriptions become the groups listed for it. -/
def handleMulticastLike (n : Node) (sender : ByteVec 5) (payloadData : Bytes) (now : UInt64) : Node :=
  match MulticastLikePayload.deserialize payloadData with
  | .error _ => n
  | .ok groups =>
    let networkIds := groups.foldl (fun ids (g : MulticastGroup) =>
      if ids.contains g.networkId then ids else ids ++ [g.networkId]) []
    let replace (m : MulticastManager) (networkId : UInt64) :=
      m.replaceSubscriptions networkId sender (groups.filter (·.networkId = networkId)) now
    { n with multicastManager := networkIds.foldl replace n.multicastManager }

/-- The known subscribers, counted and listed. -/
def handleMulticastGather (n : Node) (sender : ByteVec 5) (payloadData : Bytes) (fromAddr : SocketAddr)
    (inRePacketId : UInt64) : Node :=
  match MulticastGatherPayload.deserialize payloadData with
  | .error _ => n
  | .ok gather =>
    let subscribers := n.multicastManager.getSubscribers
      ⟨gather.networkId, gather.mac, gather.adi⟩ gather.gatherLimit.toNat
    let response := be32 (UInt32.ofNat subscribers.length) ++ subscribers.flatMap ByteVec.toBytes
    match n.sharedSecretForPeer pr sender with
    | none => n
    | some secret =>
      n.sendEncrypted pr sender .ok
        (OkPayload.serialize ⟨.multicastGather, inRePacketId, .generic response⟩) secret fromAddr

/-! ### Outbound -/

def isMulticastV4 (ip : Ipv4Addr) : Bool := 224 ≤ byteAt ip.toBytes 0 ∧ byteAt ip.toBytes 0 ≤ 239
def isBroadcastV4 (ip : Ipv4Addr) : Bool := ip.toBytes = [255, 255, 255, 255]
def isMulticastV6 (ip : Ipv6Addr) : Bool := byteAt ip.toBytes 0 = 0xff

/-- The last address of some member's prefix. -/
def isDirectedBroadcastV4 (network : NetworkMembership) (ip : Ipv4Addr) : Bool :=
  network.members.any fun member =>
    match member.ipv4 with
    | some (addr, mask) =>
      mask < 32 && ofBe32 ip.toBytes = (ofBe32 addr.toBytes ||| (0xffffffff >>> mask.toUInt32))
    | none => false

/-- The datagrams of a packet: whole, or its pieces; none when it cannot be cut. -/
def fragmentedSend (packet : Bytes) (address : SocketAddr) (mtu : Nat) : List NodeAction :=
  match fragmentPacket packet mtu with
  | some fragments => fragments.map (NodeAction.sendTo · address)
  | none => []

/-- The frame for a member as an EXT_FRAME packet, if there is a path and a session;
else a request to resolve the member. -/
def sendToMember (n : Node) (network : NetworkMembership) (member : NetworkMember)
    (ethertype : UInt16) (payload : Bytes) (ourZtAddress : ByteVec 5) (now : UInt64) :
    Node × List NodeAction :=
  let ext : ExtFramePayload :=
    { networkId := network.networkId, flags := 0, destMac := member.mac
      srcMac := network.ourMac ourZtAddress, ethertype, payload }
  let pathAndSecret := (n.topology.getPeer member.ztAddress).bind fun peer =>
    (peer.bestPath now).bind fun path => peer.sharedSecret.map fun secret => (path.address, secret)
  match pathAndSecret with
  | none => (n, [.whoisNeeded [member.ztAddress]])
  | some (address, secret) =>
    let (packetId, n) := n.allocatePacketId
    let packet := encryptedVerbPacket packetId ourZtAddress member.ztAddress .extFrame ext.serialize
    match Salsa.armorPacket pr secret packet true with
    | .error _ => (n, [])
    | .ok sealed =>
      ({ n with armored := n.armored ++ [⟨secret, packet⟩] },
        fragmentedSend sealed address network.mtu.toNat)

def arpBufferSize : Nat := 2048

/-- An ARP request that is not answered locally goes to the subscribers of the
network's ARP group, as a bare EXT_FRAME payload. -/
def arpOutbound (n : Node) (network : NetworkMembership) (payload : Bytes) (ourZtAddress : ByteVec 5)
    (now : UInt64) : Except Fault (List NodeAction) :=
  let reply := (ArpPacket.parse payload).bind fun arp => arp.handleArpRequest network
  match reply with
  | some reply => .ok [.localReply network.networkId Ethernet.ethertypeArp reply.serialize]
  | none =>
    let ext : ExtFramePayload :=
      { networkId := network.networkId, flags := 0, destMac := Ethernet.broadcastMac
        srcMac := network.ourMac ourZtAddress, ethertype := Ethernet.ethertypeArp, payload }
    if arpBufferSize < ext.serialize.length then .error .panic
    else
      let targets := n.multicastManager.getReplicationTargets
        (arpMulticastGroup network.networkId) ourZtAddress 64
      .ok (targets.filterMap fun target =>
        ((n.topology.getPeer target).bind (·.bestPath now)).map fun path =>
          .sendTo ext.serialize path.address)

/-- A fresh configuration is asked for, unless one was asked for just now. -/
def noteUnknownDestination (n : Node) (networkId now : UInt64) : Node :=
  n.modifyNetwork networkId fun net =>
    { net with
      pendingConfigRequest := true
      lastConfigRequest := if 5000 ≤ satSub now net.lastConfigRequest then 0
        else net.lastConfigRequest }

/-- The frame for the member behind an address, or a note that there is none. -/
def unicastOutbound (n : Node) (network : NetworkMembership) (member : Option NetworkMember)
    (unknown : Bool) (ethertype : UInt16) (payload : Bytes) (ourZtAddress : ByteVec 5) (now : UInt64) :
    Node × List NodeAction :=
  match member with
  | some member => sendToMember pr n network member ethertype payload ourZtAddress now
  | none =>
    if unknown then (noteUnknownDestination n network.networkId now, [.destinationUnknown network.networkId])
    else (n, [])

def processOutboundFrame (n : Node) (networkId : UInt64) (ethertype : UInt16) (payload : Bytes)
    (ourZtAddress : ByteVec 5) (now : UInt64) : Except Fault (Node × List NodeAction) :=
  match n.findNetwork networkId with
  | none => .ok (n, [])
  | some network =>
    if ethertype = Ethernet.ethertypeArp then do
      return (n, ← arpOutbound n network payload ourZtAddress now)
    else if ethertype = Ethernet.ethertypeIpv4 then
      if payload.length < 20 then .ok (n, [])
      else
        let destIp : Ipv4Addr := fieldAt 4 payload 16
        let unknown := ! isMulticastV4 destIp && ! isBroadcastV4 destIp &&
          ! isDirectedBroadcastV4 network destIp
        .ok (unicastOutbound pr n network (network.lookupIpv4 destIp) unknown ethertype payload
          ourZtAddress now)
    else if ethertype = Ethernet.ethertypeIpv6 then
      if payload.length < 40 then .ok (n, [])
      else
        let destIp : Ipv6Addr := fieldAt 16 payload 24
        .ok (unicastOutbound pr n network (network.lookupIpv6 destIp) (! isMulticastV6 destIp)
          ethertype payload ourZtAddress now)
    else .ok (n, [])

end Vl2

end ManyTier
