import ManyTier.Node.Handlers

/-! Receiving a datagram.

A fragment may complete a packet and an answer to WHOIS may release packets that were
waiting for their source; either is received in turn. `receiveWith` is one call with
the calls inside it left open, and `receiveFuel` closes them to a depth. Each call is
recorded with the node before and after it, so that what is said of one call can be
said of every call of a run. -/
namespace ManyTier

/-- One call of `receivePacket`: what it was given, and the node before and after it. -/
structure Call where
  before : Node
  data : Bytes
  fromAddr : SocketAddr
  now : UInt64
  after : Node
  actions : List NodeAction

/-- What a call returns: the node, its actions, and the calls it made, itself first. -/
structure Received where
  node : Node
  actions : List NodeAction
  calls : List Call

/-- How the calls inside a call are made. -/
abbrev Receiver := Node → Bytes → SocketAddr → UInt64 → Except Fault Received

/-- A node under way and the calls made so far. -/
structure Progress where
  node : Node
  calls : List Call

namespace Node
variable (pr : Primitives) (recv : Receiver)

/-! ### Fragments -/

/-- A completed packet is received in its turn. -/
def handleFragment (n : Node) (data : Bytes) (fromAddr : SocketAddr) (now : UInt64) :
    Except Fault Progress :=
  if data.length ≤ Constants.minFragmentLength then .ok ⟨n, []⟩
  else
    let (reassembly, whole) := n.reassembly.insertPiece data now
    let n := { n with reassembly }
    match whole with
    | none => .ok ⟨n, []⟩
    | some packet => do
      let r ← recv n packet fromAddr now
      return ⟨{ r.node with actions := r.node.actions ++ r.actions }, r.calls⟩

/-! ### The answer to WHOIS -/

/-- The address of the first root that can be reached. -/
def reachableRoot (n : Node) (now : UInt64) : Option SocketAddr :=
  n.topology.roots.findSome? fun root =>
    (n.topology.getPeer root).bind fun peer => (peer.bestPath now).map Path.address

/-- An identity becomes a peer and is greeted through a root. -/
def learnIdentity (n : Node) (identity : Identity) (now : UInt64) : Node :=
  let address := identity.address.bytes
  let topology := n.topology.addPeer identity
  let n := { n with
    topology := { topology with pendingWhois := topology.pendingWhois.erase address } }
  match n.reachableRoot now with
  | some root => n.sendHello pr address root now
  | none => n

/-- A packet that waited, received at the later of now and its arrival. -/
def replayOne (now : UInt64) (p : Progress) (packet : PendingEncryptedPacket) : Except Fault Progress := do
  let r ← recv { p.node with actions := [] } packet.data packet.sender (max now packet.receivedAt)
  return ⟨{ r.node with actions := p.node.actions ++ r.actions }, p.calls ++ r.calls⟩

/-- The packets that waited for a source, taken up in the order they came. -/
def replayPendingEncryptedPacketsFor (source : ByteVec 5) (now : UInt64) (p : Progress) :
    Except Fault Progress :=
  let waiting := p.node.pendingEncryptedPackets.filter (·.source = source)
  let rest := p.node.pendingEncryptedPackets.filter (·.source ≠ source)
  waiting.foldlM (replayOne recv now) { p with node := { p.node with pendingEncryptedPackets := rest } }

/-- One identity of the answer; one that does not hash to its address is passed over. -/
def resolveIdentity (now : UInt64) (p : Progress) (identity : Identity) : Except Fault Progress :=
  if ! p.node.identityAlreadyValidated identity && ! identity.validateAddress pr then .ok p
  else
    replayPendingEncryptedPacketsFor recv identity.address.bytes now
      { p with node := p.node.learnIdentity pr identity now }

def handleOk (d : Dispatch) (fromAddr : SocketAddr) (now : UInt64) : Except Fault Progress :=
  match OkPayload.deserialize (d.packet.drop Constants.minPacketLength) with
  | .error _ => .ok ⟨d.node, []⟩
  | .ok ok =>
    match ok.subPayload with
    | .hello timestampEcho _ _ _ _ _ =>
      .ok ⟨d.node.handleOkHello pr d.packet timestampEcho fromAddr now, []⟩
    | .whois identities => identities.foldlM (resolveIdentity pr recv now) ⟨d.node, []⟩
    | .generic data => .ok ⟨d.node.handleOkGeneric ok data now, []⟩

/-! ### One call -/

/-- What a packet does once it is admitted. -/
def dispatch (d : Dispatch) (fromAddr : SocketAddr) (now : UInt64) : Except Fault Progress :=
  match Verb.fromByte d.verbId with
  | none => .ok ⟨d.node, []⟩
  | some .ok => handleOk pr recv d fromAddr now
  | some verb => do return ⟨← handleVerb pr verb d fromAddr now, []⟩

/-- A call up to its return. -/
def receiveBody (n : Node) (data : Bytes) (fromAddr : SocketAddr) (now : UInt64) :
    Except Fault Progress :=
  match n.admitPacket pr data fromAddr now with
  | .fragment => handleFragment recv { n with actions := [] } data fromAddr now
  | .finished n => .ok ⟨n, []⟩
  | .dispatch d => dispatch pr recv d fromAddr now

/-- The actions collected are handed out with the result. -/
def receiveWith (n : Node) (data : Bytes) (fromAddr : SocketAddr) (now : UInt64) :
    Except Fault Received := do
  let p ← receiveBody pr recv n data fromAddr now
  let after := { p.node with actions := [] }
  return ⟨after, p.node.actions, ⟨n, data, fromAddr, now, after, p.node.actions⟩ :: p.calls⟩

/-- Calls nested at most `fuel` deep. -/
def receiveFuel : Nat → Receiver
  | 0 => fun _ _ _ _ => .error .outOfFuel
  | fuel + 1 => receiveWith pr (receiveFuel fuel)

/-- How many bytes a node holds back: fragments and packets of unknown sources. -/
def heldBytes (n : Node) : Nat :=
  (n.reassembly.pending.entries.map fun e =>
    (e.2.fragments.toList.map fun f => (f.getD []).length).sum).sum +
  (n.pendingEncryptedPackets.map fun p => p.data.length).sum

/-- A nested call takes its packet out of what is held, so the bytes at hand bound the
depth. -/
def receivePacket : Receiver := fun n data fromAddr now =>
  receiveFuel pr (n.heldBytes + data.length + 1) n data fromAddr now

end Node

end ManyTier
