import ManyTier.Node.Receive

/-! What a node does by itself: greeting roots, keeping sessions and paths alive,
asking for configurations and for multicast subscribers. -/
namespace ManyTier

/-! ### Local addresses -/

namespace SocketAddr

/-- IPv4 before IPv6, then field by field. -/
def le : SocketAddr → SocketAddr → Bool
  | .v4 ip port, .v4 ip' port' => ip < ip' ∨ (ip = ip' ∧ port ≤ port')
  | .v4 _ _, .v6 _ _ _ _ => true
  | .v6 _ _ _ _, .v4 _ _ => false
  | .v6 ip port flow scope, .v6 ip' port' flow' scope' =>
    ip < ip' ∨ (ip = ip' ∧ (port < port' ∨ (port = port' ∧
      (flow < flow' ∨ (flow = flow' ∧ scope ≤ scope')))))

end SocketAddr

/-- Runs of equal elements reduced to one. -/
def dedupAdjacent {α : Type} [DecidableEq α] : List α → List α
  | a :: b :: rest => if a = b then dedupAdjacent (b :: rest) else a :: dedupAdjacent (b :: rest)
  | l => l

/-! ### The request for a configuration -/

namespace ConfigRequest

def addInt (d : Dictionary) (key : List Char) (h : isUtf8 (ascii key) = true) (value : UInt64) : Dictionary :=
  d ++ [⟨⟨ascii key, h⟩, formatHex value⟩]

/-- What a node tells the controller about itself; the platform is that of the build. -/
def metadata : Dictionary :=
  let d := addInt [] ['v'] (by decide) 7
  let d := addInt d ['v', 'e', 'n', 'd'] (by decide) 1
  let d := addInt d ['p', 'v'] (by decide) HelloPayload.advertisedProtocolVersion.toUInt64
  let d := addInt d ['m', 'a', 'j', 'v'] (by decide) 1
  let d := addInt d ['m', 'i', 'n', 'v'] (by decide) 14
  let d := addInt d ['r', 'e', 'v', 'v'] (by decide) 2
  let d := addInt d ['m', 'r'] (by decide) 1024
  let d := addInt d ['m', 'c'] (by decide) 128
  let d := addInt d ['m', 'c', 'r'] (by decide) 64
  let d := addInt d ['m', 't'] (by decide) 128
  let d := addInt d ['f'] (by decide) 0
  let d := addInt d ['r', 'e', 'v', 'r'] (by decide) 1
  d ++ [⟨.literal ['o'],
    ascii ['l', 'i', 'n', 'u', 'x', '/', 'x', '8', '6', '_', '6', '4']⟩]

end ConfigRequest

namespace Node
variable (pr : Primitives)

def setLocalAddresses (n : Node) (addresses : List SocketAddr) : Node :=
  { n with localAddresses :=
      (dedupAdjacent (addresses.insertionSort fun a b => a.le b = true)).take maxLocalAddresses }

/-! ### Greetings -/

/-- A HELLO to a peer at an address; the peer and the path remember it. -/
def greet (n : Node) (address : ByteVec 5) (target : SocketAddr) (now : UInt64)
    (remember : Peer → Peer) : Node :=
  let secret := (n.sharedSecretForPeer pr address).getD (ByteVec.zero 48)
  match RootManager.buildHello pr n.identity address target now secret n.planetWorldId
      n.planetWorldTimestamp with
  | .error _ => n
  | .ok packet =>
    if (Salsa.armorPacket pr secret packet false).isOk then
      (n.sendArmored pr secret packet false target).modifyPeer address remember
    else n

/-- What a peer remembers of a HELLO sent by the timer. -/
def greeted (packetId : UInt64) (target : SocketAddr) (now : UInt64) (peer : Peer) : Peer :=
  let peer := peer.onHelloSent packetId now
  { peer with paths := modifyFirst (·.address = target) (·.sent now) peer.paths }

def greetAll (n : Node) (targets : List (ByteVec 5 × SocketAddr)) (now packetId : UInt64) : Node :=
  targets.foldl (fun n t => n.greet pr t.1 t.2 now (greeted packetId t.2 now)) n

/-- The best path, else the first one. -/
def somePath (peer : Peer) (now : UInt64) : Option SocketAddr :=
  ((peer.bestPath now).or peer.paths.head?).map Path.address

def pingTargets (n : Node) (now : UInt64) : List (ByteVec 5 × SocketAddr) :=
  n.topology.peers.entries.filterMap fun (address, peer) =>
    if peer.needsPing now then (somePath peer now).map fun target => (address, target) else none

/-- Every path that is alive and due, of the peers not pinged. -/
def heartbeatTargets (n : Node) (now : UInt64) : List (ByteVec 5 × SocketAddr) :=
  let pinged := (n.pingTargets now).map Prod.fst
  n.topology.peers.entries.flatMap fun (address, peer) =>
    (peer.paths.filter fun path =>
      path.needsHeartbeat now && path.isAlive now && ! pinged.contains address).map fun path =>
        (address, path.address)

def reconnectTargets (n : Node) (now : UInt64) : List (ByteVec 5 × SocketAddr) :=
  n.topology.peers.entries.filterMap fun (address, peer) =>
    if peer.needsReconnect now then (somePath peer now).map fun target => (address, target) else none

/-- The first path of every root, or of every root not greeted yet. -/
def rootTargets (n : Node) (unknownOnly : Bool) : List (ByteVec 5 × SocketAddr) :=
  n.topology.roots.filterMap fun root =>
    (n.topology.getPeer root).bind fun peer =>
      if unknownOnly ∧ peer.state ≠ .unknown then none
      else peer.paths.head?.map fun path => (root, path.address)

/-- Sessions without a sign of life for too long become stale. -/
def markStalePeers (n : Node) (now : UInt64) : Node :=
  { n with topology := { n.topology with
      peers := n.topology.peers.mapEntries fun _ peer =>
        if peer.isStale now then peer.markStale now else peer } }

/-! ### Direct paths -/

/-- The active network peers that are due to hear our addresses. -/
def pushTargets (n : Node) (now : UInt64) : List (ByteVec 5 × SocketAddr) :=
  n.topology.peers.entries.filterMap fun (address, peer) =>
    let isMember := n.networks.any fun net => net.members.any (·.ztAddress = address)
    let due : Bool := peer.lastDirectPathPush = 0 ∨
      Constants.directPathPushInterval ≤ satSub now peer.lastDirectPathPush
    if ! peer.isRoot ∧ isMember ∧ peer.sharedSecret.isSome ∧ due then
      (peer.bestPath now).map fun path => (address, path.address)
    else none

def pushDirectPathsTo (now : UInt64) (n : Node) (target : ByteVec 5 × SocketAddr) : Node :=
  match n.sharedSecretForPeer pr target.1 with
  | none => n
  | some secret =>
    let paths := n.localAddresses.map fun a => (⟨0, .fromSocketAddr a⟩ : DirectPath)
    (n.sendEncrypted pr target.1 .pushDirectPaths (PushDirectPathsPayload.serialize paths) secret
      target.2).modifyPeer target.1 fun peer => { peer with lastDirectPathPush := now }

def pushDirectPaths (n : Node) (now : UInt64) : Node :=
  if n.localAddresses.isEmpty then n else (n.pushTargets now).foldl (pushDirectPathsTo pr now) n

/-! ### Configuration requests -/

def configRequestInterval : UInt64 := 30000
def controllerWhoisRetryInterval : UInt64 := 10000

/-- Whether a configuration is wanted for a network. -/
def configWanted (now : UInt64) (net : NetworkMembership) : Bool :=
  net.ourComRefreshDue now || net.pendingConfigRequest

/-- Whether a request may go out now. -/
def configDue (now : UInt64) (net : NetworkMembership) : Bool :=
  configWanted now net &&
    (net.lastConfigRequest = 0 || configRequestInterval ≤ satSub now net.lastConfigRequest)

def firstPath (n : Node) (address : ByteVec 5) : Option SocketAddr :=
  (n.topology.getPeer address).bind fun peer => peer.paths.head?.map Path.address

def hasSession (n : Node) (address : ByteVec 5) : Bool :=
  match n.topology.getPeer address with
  | some peer => peer.sharedSecret.isSome
  | none => false

/-- Whether an identity that was asked for may be asked for again. -/
def whoisDue (n : Node) (address : ByteVec 5) (now : UInt64) : Bool :=
  match n.topology.pendingWhois.get? address with
  | some (sent, _) => controllerWhoisRetryInterval ≤ satSub now sent
  | none => true

/-- The controller has to be known first: its identity is asked for, from time to time. -/
def requestController (n : Node) (controller : ByteVec 5) (now : UInt64) : Node :=
  if n.whoisDue controller now then
    let asked := { n.topology with pendingWhois := n.topology.pendingWhois.insert controller (now, 0) }
    { n with topology := asked }.pushAction (.whoisNeeded [controller])
  else n

/-- One request, to the controller or through the first root. -/
def requestConfig (now : UInt64) (n : Node) (networkId : UInt64) : Node :=
  let controller := controllerAddressFromNetworkId networkId
  match (n.firstPath controller).or (n.topology.roots.head?.bind n.firstPath) with
  | none => n
  | some target =>
    if ! n.hasSession controller then n.requestController controller now
    else
      match n.sharedSecretForPeer pr controller with
      | none => n
      | some secret =>
        let payload := NetworkConfigRequestPayload.serialize
          ⟨networkId, ConfigRequest.metadata.serialize⟩
        (n.sendEncrypted pr controller .networkConfigRequest payload secret target).modifyNetwork
          networkId fun net => { net with lastConfigRequest := now }

def queueConfigRequests (n : Node) (now : UInt64) : Node :=
  let due := (n.networks.filter (configDue now)).map NetworkMembership.networkId
  let want (net : NetworkMembership) : NetworkMembership :=
    if configWanted now net then { net with pendingConfigRequest := true } else net
  due.foldl (requestConfig pr now) { n with networks := n.networks.map want }

/-- The requests that are due, and their actions alone. -/
def flushConfigRequests (n : Node) (now : UInt64) : Node × List NodeAction :=
  let sent := { n with actions := [] }.queueConfigRequests pr now
  ({ sent with actions := n.actions }, sent.actions)

/-! ### Multicast -/

def multicastLikeInterval : UInt64 := 30000
def multicastGatherInterval : UInt64 := 45000
def multicastSubscriptionMaxAge : UInt64 := 90000

/-- The node under way and the peers that could not be reached. -/
abbrev Multicasting := Node × List (ByteVec 5)

/-- What is sent to a peer, if it can be reached. -/
def toPeer (now : UInt64) (send : Node → ByteVec 5 → Secret → SocketAddr → Node) (m : Multicasting)
    (address : ByteVec 5) : Multicasting :=
  match m.1.activeEndpoint address now with
  | some (secret, target) => (send m.1 address secret target, m.2)
  | none => (m.1, m.2 ++ [address])

/-- The members of a network other than us. -/
def otherMembers (n : Node) (net : NetworkMembership) : List (ByteVec 5) :=
  (net.members.filter fun m => m.ztAddress ≠ n.address).map NetworkMember.ztAddress

def localGroups (n : Node) (networkId : UInt64) : List MulticastGroup :=
  n.multicastManager.groupsForSubscriber networkId n.address

/-- The networks with local groups and other members. -/
def multicastNetworks (n : Node) : List NetworkMembership :=
  n.networks.filter fun net =>
    ! (n.localGroups net.networkId).isEmpty && ! (n.otherMembers net).isEmpty

def sendLikes (now : UInt64) (m : Multicasting) (net : NetworkMembership) : Multicasting :=
  let n := m.1.modifyNetwork net.networkId fun net => { net with lastMulticastLike := now }
  let payload := MulticastLikePayload.serialize (n.localGroups net.networkId)
  let send (n : Node) (address : ByteVec 5) (secret : Secret) (target : SocketAddr) : Node :=
    n.sendEncrypted pr address .multicastLike payload secret target
  (n.otherMembers net).foldl (toPeer now send) (n, m.2)

/-- A question for subscribers, remembered under its packet id. -/
def sendGather (networkId now : UInt64) (address : ByteVec 5) (secret : Secret) (target : SocketAddr)
    (n : Node) (group : MulticastGroup) : Node :=
  let payload := MulticastGatherPayload.serialize
    { networkId, flags := 0, mac := group.mac, adi := group.adi, gatherLimit := 64, com := none }
  let asked : PendingMulticastGather := ⟨n.nextPacketId, now, { group with networkId }⟩
  let n := n.sendEncrypted pr address .multicastGather payload secret target
  { n with pendingMulticastGathers := n.pendingMulticastGathers ++ [asked] }

def sendGathers (now : UInt64) (m : Multicasting) (net : NetworkMembership × List MulticastGroup) :
    Multicasting :=
  let n := m.1.modifyNetwork net.1.networkId fun net => { net with lastMulticastGather := now }
  let send (n : Node) (address : ByteVec 5) (secret : Secret) (target : SocketAddr) : Node :=
    net.2.foldl (sendGather pr net.1.networkId now address secret target) n
  (n.otherMembers net.1).foldl (toPeer now send) (n, m.2)

/-- Subscriptions advertised and gathered where they are due. -/
def multicastRound (n : Node) (now : UInt64) : Node :=
  let nets := n.multicastNetworks
  let likes := nets.filter fun net => multicastLikeInterval ≤ satSub now net.lastMulticastLike
  let gathers := (nets.filter fun net => multicastGatherInterval ≤ satSub now net.lastMulticastGather).map
    fun net => (net, n.localGroups net.networkId)
  let m := likes.foldl (sendLikes pr now) (n, [])
  let (n, unresolved) := gathers.foldl (sendGathers pr now) m
  if unresolved.isEmpty then n
  else n.pushAction (.whoisNeeded (unresolved.dedup.insertionSort (· ≤ ·)))

/-! ### The timer -/

/-- What has expired is removed. -/
def expire (n : Node) (now : UInt64) : Node :=
  { n with
    actions := []
    reassembly := n.reassembly.evictStale now Constants.pathHeartbeatPeriod
    multicastManager := n.multicastManager.expireOld now multicastSubscriptionMaxAge
    pendingMulticastGathers := n.pendingMulticastGathers.filter fun p =>
      satSub now p.requestedAt ≤ multicastSubscriptionMaxAge }

/-- The HELLOs of the timer up to those for roots not greeted yet. -/
def keepAlive (n : Node) (now : UInt64) : Node :=
  let reconnect := n.reconnectTargets now
  let pings := n.pingTargets now
  let heartbeats := n.heartbeatTargets now
  let n := n.greetAll pr pings now 0
  let n := n.greetAll pr heartbeats now 0
  let n := n.pushDirectPaths pr now
  n.greetAll pr reconnect now now

/-- The collected actions handed out. -/
def takeActions (n : Node) : Node × List NodeAction := ({ n with actions := [] }, n.actions)

/-- The timer up to its configuration requests: the roots not greeted yet come last. -/
def greetings (n : Node) (now : UInt64) : Node :=
  let n := ((n.expire now).markStalePeers now).keepAlive pr now
  n.greetAll pr (n.rootTargets true) now now

def tick (n : Node) (now : UInt64) : Node × List NodeAction :=
  (((n.greetings pr now).queueConfigRequests pr now).multicastRound pr now).takeActions

/-- A peer that waits for the answer to its first HELLO. -/
def waiting (now : UInt64) (peer : Peer) : Peer :=
  { peer with state := .helloSent now now Constants.pathHelloRateLimit }

def firstHello (now : UInt64) (n : Node) (target : ByteVec 5 × SocketAddr) : Node :=
  n.greet pr target.1 target.2 now (waiting now)

/-- The first HELLO to every root. -/
def bootstrap (n : Node) (now : UInt64) : Node × List NodeAction :=
  ((n.rootTargets false).foldl (firstHello pr now) { n with actions := [] }).takeActions

/-! ### WHOIS -/

def whoisBufferSize : Nat := 512

/-- The first root that can be reached and has a key. -/
def whoisRoot (n : Node) (now : UInt64) : Option (ByteVec 5 × Secret × SocketAddr) :=
  n.topology.roots.findSome? fun root =>
    (n.topology.getPeer root).bind fun peer =>
      (peer.bestPath now).bind fun path =>
        (n.sharedSecretForPeer pr root).map fun secret => (root, secret, path.address)

/-- The addresses are asked for at one root; the actions are returned, not collected. -/
def sendWhois (n : Node) (addresses : List (ByteVec 5)) (now : UInt64) : Node × List NodeAction :=
  match n.whoisRoot pr now with
  | none => (n, [])
  | some (root, secret, target) =>
    match RootManager.buildWhois n.identity root addresses now whoisBufferSize with
    | .error _ => (n, [])
    | .ok packet =>
      let sent := { n with actions := [] }.sendArmored pr secret packet true target
      ({ sent with actions := n.actions }, sent.actions)

end Node

end ManyTier
