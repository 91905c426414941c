import ManyTier.Node.Admission
import ManyTier.Node.ConfigApply

/-! The handlers of the verbs, except for the answer to WHOIS, which may have to take
up packets that were waiting. A handler gets the packet as it was opened. -/
namespace ManyTier

namespace Node
variable (pr : Primitives)

def protoVersionMin : UInt8 := 4

/-- A packet without a hop comes from its sender's own address. -/
def arrivedDirectly (packet : Bytes) : Bool := (PacketHeader.read packet).hops = 0

/-! ### Sessions and paths -/

/-- A HELLO is opened under the key agreed with the identity it carries. -/
def helloOpens (n : Node) (packet : Bytes) (hello : HelloPayload) : Option Secret :=
  n.identity.secret.bind fun ours =>
    let secret := KeyAgreement.keyAgree pr ours.dh hello.identity.publicKey.dh
    if (Salsa.dearmorPacket pr secret packet).isOk then some secret else none

/-- The peer of an accepted HELLO: a session and a path, for the identity it carried. -/
def acceptHello (n : Node) (packet : Bytes) (hello : HelloPayload) (secret : Secret)
    (fromAddr : SocketAddr) (now packetId : UInt64) : Node :=
  let address := hello.identity.address.bytes
  let greet (peer : Peer) : Peer :=
    { peer.addPath fromAddr (arrivedDirectly packet) now with state := .newActive pr secret 0 now now }
  let n := { n with topology := n.topology.addPeer { hello.identity with secret := none } }
  (n.modifyPeer address greet).sendArmored pr secret
    (RootManager.buildOkHello n.identity address packetId hello.timestamp now) true fromAddr

def handleHello (n : Node) (packet : Bytes) (fromAddr : SocketAddr) (now packetId : UInt64) : Node :=
  match HelloPayload.deserialize (packet.drop Constants.minPacketLength) with
  | .error _ => n
  | .ok (hello, _) =>
    match n.helloOpens pr packet hello with
    | none => n
    | some secret =>
      if hello.protocolVersion < protoVersionMin then n
      else if ! n.identityAlreadyValidated hello.identity && ! hello.identity.validateAddress pr then n
      else n.acceptHello pr packet hello secret fromAddr now packetId

/-- The session of the peer an OK(HELLO) came from. -/
def handleOkHello (n : Node) (packet : Bytes) (timestampEcho : UInt64) (fromAddr : SocketAddr)
    (now : UInt64) : Node :=
  let latency := (satSub now timestampEcho).toUInt32
  let timed (path : Path) : Path := { path with latencyMs := latency }
  let settle (peer : Peer) : Peer :=
    let peer := match n.identity.secret with
      | some ours => peer.establishSession pr ours.dh latency now
      | none => peer
    let peer := peer.addPath fromAddr (arrivedDirectly packet) now
    { peer with paths := modifyFirst (·.address = fromAddr) timed peer.paths }
  n.modifyPeer (PacketHeader.read packet).source settle

/-- HELLO to an address; its path is recorded when it answers. -/
def sendProbeHello (n : Node) (peerAddress : ByteVec 5) (target : SocketAddr) (now : UInt64) : Node :=
  if n.identity.secret.isNone then n else n.sendHello pr peerAddress target now

/-- The addresses a peer advertised that are not paths of it yet. -/
def probeTargets (peer : Peer) (paths : List DirectPath) (fromAddr : SocketAddr) : List SocketAddr :=
  let known := peer.paths.map Path.address
  ((paths.filterMap fun p => p.address.toSocketAddr).filter fun a =>
    a ≠ fromAddr && ! known.contains a).take maxLocalAddresses

def handlePushDirectPaths (n : Node) (packet : Bytes) (fromAddr : SocketAddr) (now : UInt64) : Node :=
  match PushDirectPathsPayload.deserialize (packet.drop Constants.minPacketLength) with
  | .error _ => n
  | .ok paths =>
    let source := (PacketHeader.read packet).source
    match n.topology.getPeer source with
    | none => n
    | some peer =>
      let peer := peer.addPath fromAddr (arrivedDirectly packet) now
      let n := n.modifyPeer source fun _ => peer
      (probeTargets peer paths fromAddr).foldl (fun n target => n.sendProbeHello pr source target now) n

def handleRendezvous (n : Node) (packet : Bytes) (now : UInt64) : Node :=
  match RendezvousPayload.deserialize (packet.drop Constants.minPacketLength) with
  | .error _ => n
  | .ok rendezvous =>
    match rendezvous.address.toSocketAddr with
    | none => n
    | some target => n.sendProbeHello pr rendezvous.peerAddress target now

/-! ### Answers -/

def answerBufferSize : Nat := 2048

/-- The identities known for the addresses asked for, and the addresses not known. -/
def whoisLookup (n : Node) : List (ByteVec 5) → List Identity × List (ByteVec 5)
  | [] => ([], [])
  | address :: rest =>
    let (known, unknown) := n.whoisLookup rest
    if address = n.address then ({ n.identity with secret := none } :: known, unknown)
    else
      match n.topology.getPeer address with
      | some peer =>
        match Identity.parse peer.identity.toPublicString with
        | .ok identity => (identity :: known, unknown)
        | .error _ => (known, unknown)
      | none => (known, address :: unknown)

/-- The answer to WHOIS takes the clock as its id. -/
def whoisAnswer (n : Node) (dest : ByteVec 5) (inRePacketId : UInt64) (identities : List Identity)
    (now : UInt64) : Bytes :=
  encryptedVerbPacket now n.address dest .ok (OkPayload.serialize ⟨.whois, inRePacketId, .whois identities⟩)

/-- The identities found go to the peer that asked, if there is a key for it. -/
def answerWhois (n : Node) (dest : ByteVec 5) (inRePacketId : UInt64) (known : List Identity)
    (fromAddr : SocketAddr) (now : UInt64) : Except Fault Node :=
  if known.isEmpty then .ok n
  else
    match n.sharedSecretForPeer pr dest with
    | none => .ok n
    | some secret =>
      let answer := n.whoisAnswer dest inRePacketId known now
      if answerBufferSize < answer.length then .error .panic
      else .ok (n.sendArmored pr secret answer true fromAddr)

def handleWhois (n : Node) (packet : Bytes) (fromAddr : SocketAddr) (now : UInt64) : Except Fault Node :=
  if packet.length ≤ Constants.minPacketLength then .ok n
  else
    let h := PacketHeader.read packet
    let (known, unknown) :=
      n.whoisLookup (WhoisRequest.deserialize (packet.drop Constants.minPacketLength))
    match n.answerWhois pr h.source h.packetId known fromAddr now with
    | .error e => .error e
    | .ok n => .ok (if unknown.isEmpty then n else n.pushAction (.whoisNeeded unknown))

/-- The flags byte of an answer to ECHO is sent with a hop count of one. -/
def echoAnswer (n : Node) (dest : ByteVec 5) (packetId inRePacketId : UInt64) (payload : Bytes) : Bytes :=
  plainHeader packetId dest n.address (encryptedFlags ||| 0x01) Verb.ok.toByte ++
    OkPayload.serialize ⟨.echo, inRePacketId, .generic payload⟩

def handleEcho (n : Node) (packet : Bytes) (fromAddr : SocketAddr) (packetId : UInt64) :
    Except Fault Node :=
  let payload := packet.drop Constants.minPacketLength
  if payload.isEmpty ∨ n.identity.secret.isNone then .ok n
  else
    let source := (PacketHeader.read packet).source
    match n.sharedSecretForPeer pr source with
    | none => .ok n
    | some secret =>
      let (id, n) := n.allocatePacketId
      let answer := n.echoAnswer source id packetId payload
      if answerBufferSize < answer.length then .error .panic
      else .ok (n.sendArmored pr secret answer true fromAddr)

/-! ### Networks -/

/-- The payload of a NETWORK_CONFIG, if the sender is the network's controller. -/
def configFromController (packet : Bytes) : Option NetworkConfigPayload :=
  match NetworkConfigPayload.deserialize (packet.drop Constants.minPacketLength) with
  | .error _ => none
  | .ok nc =>
    if (PacketHeader.read packet).source ≠ controllerAddressFromNetworkId nc.networkId then none
    else some nc

def handleNetworkConfig (n : Node) (packet : Bytes) : Node :=
  match configFromController packet with
  | none => n
  | some nc => n.applyReceivedNetworkConfig nc

/-- The certificate of a credentials message and the network it names. -/
def credentialsCom (packet : Bytes) : Option (UInt64 × CertificateOfMembership) :=
  match NetworkCredentialsPayload.deserialize (packet.drop Constants.minPacketLength) with
  | .error _ => none
  | .ok creds => creds.com.bind fun com => (com.qualifier 1).map fun networkId => (networkId, com)

/-- A certificate replaces ours on the network it names. -/
def installCom (com : CertificateOfMembership) (net : NetworkMembership) : NetworkMembership :=
  { net with pendingConfigRequest := false, lastConfigRequest := 0, ourCom := some com }

def handleNetworkCredentials (n : Node) (packet : Bytes) : Node :=
  match credentialsCom packet with
  | none => n
  | some (networkId, com) => n.modifyNetwork networkId (installCom com)

/-! ### Multicast -/

/-- The subscribers an OK(MULTICAST_GATHER) counts and lists; none when they are not
all there. -/
def gatheredSubscribers (data : Bytes) : List (ByteVec 5) :=
  let count := (u32At data 0).toNat
  if data.length < 4 ∨ data.length < 4 + count * 5 then []
  else (List.range count).map fun i => fieldAt 5 data (4 + i * 5)

/-- The answer to a question that is still open; the question is closed by it. -/
def handleMulticastGatherOk (n : Node) (packetId : UInt64) (data : Bytes) (now : UInt64) : Node :=
  match n.pendingMulticastGathers.findIdx? (·.packetId = packetId),
      n.pendingMulticastGathers.find? (·.packetId = packetId) with
  | some index, some pending =>
    { n with
      pendingMulticastGathers := swapRemove n.pendingMulticastGathers index
      multicastManager := (gatheredSubscribers data).foldl
        (fun m subscriber => m.subscribe pending.group subscriber now) n.multicastManager }
  | _, _ => n

/-! ### OK, without the answer to WHOIS -/

/-- The configuration an OK(NETWORK_CONFIG_REQUEST) carries. Its sender is not looked at. -/
def okConfig (ok : OkPayload) : Option NetworkConfigPayload :=
  match ok.subPayload with
  | .generic data =>
    if ok.inReVerb = .networkConfigRequest then (NetworkConfigPayload.deserialize data).toOption else none
  | _ => none

def handleOkGeneric (n : Node) (ok : OkPayload) (data : Bytes) (now : UInt64) : Node :=
  if ok.inReVerb = .multicastGather then n.handleMulticastGatherOk ok.inRePacketId data now
  else
    match okConfig ok with
    | some nc => n.applyReceivedNetworkConfig nc
    | none => n

/-! ### Reports -/

/-- A verb that is only reported to the host. -/
def handleReport (n : Node) (verb : Verb) (source : ByteVec 5) (payload : Bytes) (fromAddr : SocketAddr)
    (packetId : UInt64) : Node :=
  match verb with
  | .networkConfigRequest =>
    match NetworkConfigRequestPayload.deserialize payload with
    | .ok req =>
      n.pushAction (.networkConfigRequested source req.networkId req.dictData fromAddr packetId)
    | .error _ => n
  | .userMessage =>
    match UserMessagePayload.deserialize payload with
    | .ok msg => n.pushAction (.userMessageReceived source msg.typeId msg.data)
    | .error _ => n
  | .remoteTrace =>
    match RemoteTracePayload.deserialize payload with
    | .ok data => n.pushAction (.remoteTraceReceived source data)
    | .error _ => n
  | .pathNegotiationRequest =>
    match PathNegotiationRequestPayload.deserialize payload with
    | .ok utility => n.pushAction (.pathNegotiationReceived source utility)
    | .error _ => n
  -- NOP, ERROR, ACK and QOS_MEASUREMENT are only logged.
  | _ => n

/-- Every verb but OK. -/
def handleVerb (verb : Verb) (d : Dispatch) (fromAddr : SocketAddr) (now : UInt64) : Except Fault Node :=
  let payload := d.packet.drop Constants.minPacketLength
  match verb with
  | .hello => .ok (d.node.handleHello pr d.packet fromAddr now d.packetId)
  | .whois => d.node.handleWhois pr d.packet fromAddr now
  | .rendezvous => .ok (d.node.handleRendezvous pr d.packet now)
  | .echo => d.node.handleEcho pr d.packet fromAddr d.packetId
  | .pushDirectPaths => .ok (d.node.handlePushDirectPaths pr d.packet fromAddr now)
  | .networkConfig => .ok (d.node.handleNetworkConfig d.packet)
  | .networkCredentials => .ok (d.node.handleNetworkCredentials d.packet)
  | .frame => .ok (Vl2.handleFrame pr d.node d.source payload)
  | .extFrame => .ok (Vl2.handleExtFrame pr d.node d.source payload)
  | .multicastLike => .ok (Vl2.handleMulticastLike d.node d.source payload now)
  | .multicastGather =>
    .ok (Vl2.handleMulticastGather pr d.node d.source payload fromAddr d.packetId)
  | .multicastFrame => .ok (Vl2.handleMulticastFrame pr d.node d.source payload)
  | _ => .ok (d.node.handleReport verb d.source payload fromAddr d.packetId)

end Node

end ManyTier
