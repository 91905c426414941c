import ManyTier.Crypto.AesGmacSiv
import ManyTier.Node.Vl2

/-! What happens to a datagram before its verb is handled.

A packet for another node is relayed. A packet for this node is opened under what is
held for its source; one that cannot be opened is dropped, unless its cipher suite is
0, which goes on as it came. What goes on has the paths of its source updated and is
handed to the verb's handler. -/
namespace ManyTier

namespace Node
variable (pr : Primitives)

/-! ### Relay -/

/-- The session's secret and the best address of an active peer. -/
def activeEndpoint (n : Node) (address : ByteVec 5) (now : UInt64) : Option (Secret × SocketAddr) :=
  (n.topology.getPeer address).bind fun peer =>
    peer.sharedSecret.bind fun secret => (peer.bestPath now).map fun path => (secret, path.address)

/-- Each of two active peers is told the other's address. -/
def maybeSendRendezvous (n : Node) (source dest : ByteVec 5) (now : UInt64) : Node :=
  match n.activeEndpoint source now, n.activeEndpoint dest now with
  | some (sourceSecret, sourcePhys), some (destSecret, destPhys) =>
    let n := n.sendArmored pr sourceSecret
      (RootManager.buildRendezvous n.identity source dest (.fromSocketAddr destPhys) now) true sourcePhys
    n.sendArmored pr destSecret
      (RootManager.buildRendezvous n.identity dest source (.fromSocketAddr sourcePhys) now) true destPhys
  | _, _ => n

/-- A packet for another node goes on with one hop more. -/
def handleRelay (n : Node) (data : Bytes) (now : UInt64) : Node :=
  match Switch.incrementHops data with
  | none => n
  | some data =>
    let h := PacketHeader.read data
    match Switch.route n.topology h.dest now with
    | .direct address =>
      (n.pushAction (.sendTo data address)).maybeSendRendezvous pr h.source h.dest now
    | .relay rootAddress _ => n.pushAction (.sendTo data rootAddress)
    | .drop => n

/-! ### Opening -/

def packetDecompressCapacity : Nat := 7 * 1432

def buildAesAad (packet : Bytes) : Bytes := slice packet 8 10 ++ [byteAt packet 18 &&& 0xf8]

/-- The packet with its payload decompressed and the flag cleared. -/
def decompressPacket (packet : Bytes) : Option Bytes :=
  if packet.length < Constants.minPacketLength then none
  else
    (pr.lz4Decompress (packet.drop Constants.minPacketLength)
      (packetDecompressCapacity - Constants.minPacketLength)).map fun payload =>
      packet.take 27 ++ ((byteAt packet 27 &&& ~~~ Constants.verbFlagCompressed) :: payload)

/-- The packet opened under what is held for its source; nothing when there is nothing
held, the MAC is wrong, or it is a HELLO, which its handler opens. -/
def dearmor (n : Node) (data : Bytes) : Option Bytes :=
  let h := PacketHeader.read data
  let withSecret := (n.sharedSecretForPeer pr h.source).bind fun secret =>
    (Salsa.dearmorPacket pr secret data).toOption
  if h.cipherSuite = Constants.cipherNone then
    if h.verb &&& 0x1f = Verb.hello.toByte then none else withSecret
  else if h.cipherSuite = Constants.cipherSalsa2012 then withSecret
  else if h.cipherSuite = Constants.cipherAesGmacSiv then
    (n.aesKeysForPeer h.source).bind fun (k0, k1) =>
      match AesGmacSiv.dearmorPacket pr k0 k1 data (buildAesAad data) with
      | .ok (opened, true) => some opened
      | _ => none
  else none

/-! ### Bookkeeping -/

/-- Whether some root other than `source` has the address as a path. -/
def isRelayed (n : Node) (source : ByteVec 5) (fromAddr : SocketAddr) : Bool :=
  n.topology.roots.any fun root =>
    root ≠ source &&
      match n.topology.getPeer root with
      | some peer => peer.paths.any (·.address = fromAddr)
      | none => false

def fromKnownRootPath (n : Node) (fromAddr : SocketAddr) : Bool :=
  n.topology.roots.any fun root =>
    match n.topology.getPeer root with
    | some peer => peer.paths.any (·.address = fromAddr)
    | none => false

/-- The packet kept until its source is resolved: at most 32, none twice and none
longer than its time. -/
def queuePendingEncryptedPacket (n : Node) (packet : PendingEncryptedPacket) : Node :=
  let kept := n.pendingEncryptedPackets.filter fun p =>
    satSub packet.receivedAt p.receivedAt ≤ pendingEncryptedPacketTtl
  let pending :=
    if kept.any fun p => p.source = packet.source ∧ p.sender = packet.sender ∧
        p.packetId = packet.packetId then kept
    else (if pendingEncryptedPacketLimit ≤ kept.length then kept.tail else kept) ++ [packet]
  { n with pendingEncryptedPackets := pending }

/-- A packet that could not be opened. One that a root relayed from a source not known
is kept, and its source asked for. -/
def dropUnopened (n : Node) (data : Bytes) (fromAddr : SocketAddr) (now : UInt64) : Node :=
  let h := PacketHeader.read data
  if (n.topology.getPeer h.source).isNone && n.fromKnownRootPath fromAddr then
    (n.queuePendingEncryptedPacket ⟨h.source, fromAddr, h.packetId, now, data⟩).pushAction
      (.whoisNeeded [h.source])
  else n

/-- A peer heard from at an address. -/
def heardFrom (relayed : Bool) (fromAddr : SocketAddr) (now : UInt64) (peer : Peer) : Peer :=
  let peer := if relayed then peer.addPath fromAddr false now else peer.promotePath fromAddr now
  match peer.state with
  | .active secret k0 k1 latency _ lastSend =>
    { peer with state := .active secret k0 k1 latency now lastSend }
  | _ => peer

/-- The paths of a packet's source updated. -/
def noteSource (n : Node) (source : ByteVec 5) (fromAddr : SocketAddr) (now : UInt64) : Node :=
  n.modifyPeer source (heardFrom (n.isRelayed source fromAddr) fromAddr now)

end Node

/-! ### Admission -/

/-- A packet on its way to a handler: the node with the source's paths updated, and
the packet as the handler sees it. -/
structure Dispatch where
  node : Node
  packet : Bytes
  verbId : UInt8
  source : ByteVec 5
  packetId : UInt64

/-- What is done with a datagram before any handler. -/
inductive Admission where
  | fragment
  | finished (node : Node)
  | dispatch (d : Dispatch)

namespace Node
variable (pr : Primitives)

/-- The packet `packet` of the datagram `data` handed on. -/
def handOn (n : Node) (data packet : Bytes) (verbId : UInt8) (fromAddr : SocketAddr) (now : UInt64) :
    Admission :=
  let h := PacketHeader.read data
  .dispatch { node := n.noteSource h.source fromAddr now, packet, verbId, source := h.source
              packetId := h.packetId }

def admitPacket (n : Node) (data : Bytes) (fromAddr : SocketAddr) (now : UInt64) : Admission :=
  let n := { n with actions := [] }
  let h := PacketHeader.read data
  if isFragment data then .fragment
  else if data.length < Constants.minPacketLength then .finished n
  else if h.dest ≠ n.address then .finished (n.handleRelay pr data now)
  else
    match n.dearmor pr data with
    | none =>
      -- A packet of suite 0 goes on although it was not opened.
      if h.cipherSuite ≠ Constants.cipherNone then .finished (n.dropUnopened data fromAddr now)
      else n.handOn data data (h.verb &&& 0x1f) fromAddr now
    | some opened =>
      if byteAt opened 27 &&& Constants.verbFlagCompressed ≠ 0 then
        match decompressPacket pr opened with
        | none => .finished n
        | some packet => n.handOn data packet (byteAt packet 27 &&& 0x1f) fromAddr now
      else n.handOn data opened (byteAt opened 27 &&& 0x1f) fromAddr now

end Node

end ManyTier
