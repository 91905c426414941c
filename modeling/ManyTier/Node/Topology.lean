import ManyTier.Lib.SortedMap
import ManyTier.Protocol.World
import ManyTier.Node.Peer

/-! The peer table, the root servers and the choice of a route. -/
namespace ManyTier

structure Topology where
  peers : SortedMap (ByteVec 5) Peer
  roots : List (ByteVec 5)
  planet : Option World
  moons : List World
  pendingWhois : SortedMap (ByteVec 5) (UInt64 × UInt64)
  deriving DecidableEq

namespace Topology

def new : Topology := ⟨.empty, [], none, [], .empty⟩

/-- The peer entry of a world's root: its public identity and its endpoints. -/
def rootPeer (root : WorldRoot) : Peer :=
  root.endpoints.foldl (fun p endpoint =>
    match endpoint.toSocketAddr with
    | some addr => p.addPath addr true 0
    | none => p) (.new { root.identity with secret := none } true)

/-- A root enters the root set once; its peer entry is replaced. -/
def addRoot (t : Topology) (root : WorldRoot) : Topology :=
  let addr := root.identity.address.bytes
  { t with
    roots := if t.roots.contains addr then t.roots else t.roots ++ [addr]
    peers := t.peers.insert addr (rootPeer root) }

def loadPlanet (t : Topology) (world : World) : Topology :=
  { world.roots.foldl addRoot t with planet := some world }

/-- A moon whose own signature does not verify is refused. -/
def loadMoon (pr : Primitives) (t : Topology) (moon : World) :
    Except Fault (Except ProtocolError Topology) := do
  match ← moon.verifySignature pr with
  | .error e => return .error e
  | .ok () =>
    let t := moon.roots.foldl addRoot t
    return .ok { t with moons := t.moons ++ [moon] }

def isRootOf (world : World) (addr : ByteVec 5) : Bool :=
  world.roots.any fun r => r.identity.address.bytes = addr

/-- The first moon with the id is removed, and those of its roots that are listed
nowhere else. -/
def unloadMoon (t : Topology) (moonId : UInt64) : Topology × Bool :=
  match t.moons.findIdx? (·.id = moonId), t.moons.find? (·.id = moonId) with
  | some index, some moon =>
    let moons := t.moons.eraseIdx index
    let stillARoot (addr : ByteVec 5) : Bool :=
      (match t.planet with
        | some p => isRootOf p addr
        | none => false) || moons.any (isRootOf · addr)
    let drop (roots : List (ByteVec 5)) (root : WorldRoot) :=
      let addr := root.identity.address.bytes
      if stillARoot addr then roots else roots.filter (· ≠ addr)
    ({ t with moons, roots := moon.roots.foldl drop t.roots }, true)
  | _, _ => (t, false)

def getPeer (t : Topology) (address : ByteVec 5) : Option Peer := t.peers.get? address

def modifyPeer (t : Topology) (address : ByteVec 5) (f : Peer → Peer) : Topology :=
  { t with peers := t.peers.modify address f }

def getRoot (t : Topology) : Option Peer := t.roots.findSome? t.getPeer

/-- A learned identity becomes a peer; a known address keeps its entry. -/
def addPeer (t : Topology) (identity : Identity) : Topology :=
  let addr := identity.address.bytes
  if t.peers.contains addr then t else { t with peers := t.peers.insert addr (.new identity false) }

end Topology

/-! ### Routing -/

inductive RouteDecision where
  | direct (address : SocketAddr)
  | relay (rootAddress : SocketAddr) (destZtAddress : ByteVec 5)
  | drop
  deriving DecidableEq

namespace Switch

/-- Directly when the peer's best path is direct, else through the first root. -/
def route (t : Topology) (dest : ByteVec 5) (now : UInt64) : RouteDecision :=
  let relay : RouteDecision :=
    match t.getRoot with
    | none => .drop
    | some root =>
      match root.bestPath now, root.paths with
      | some path, _ => .relay path.address dest
      | none, first :: _ => .relay first.address dest
      | none, [] => .drop
  match (t.getPeer dest).bind (·.bestPath now) with
  | some path => if path.isDirect then .direct path.address else relay
  | none => relay

/-- The packet with one hop more, unless it has had its hops. -/
def incrementHops (packet : Bytes) : Option Bytes :=
  if packet.length < 19 then none
  else
    let flags := byteAt packet 18
    let hops := flags &&& 0x07
    if Constants.relayMaxHops ≤ hops then none
    else some (packet.set 18 ((flags &&& 0xf8) ||| (hops + 1)))

end Switch

end ManyTier
