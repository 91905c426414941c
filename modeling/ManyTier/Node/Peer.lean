import ManyTier.Lib.Lists
import ManyTier.Protocol.InetAddress

/-! Paths and peers.

A path is one transport address of a peer with the times it was last used; a peer
is an identity with its session state and paths. -/
namespace ManyTier

/-! ### Paths -/

structure Path where
  address : SocketAddr
  lastSend : UInt64
  lastReceive : UInt64
  latencyMs : UInt32
  isDirect : Bool
  deriving DecidableEq

namespace Path

def new (address : SocketAddr) (now : UInt64) : Path := ⟨address, 0, now, 0, true⟩

def isAlive (p : Path) (now : UInt64) : Bool :=
  satSub now p.lastReceive < Constants.peerPathExpiration

def received (p : Path) (now : UInt64) : Path := { p with lastReceive := now }

def sent (p : Path) (now : UInt64) : Path := { p with lastSend := now }

/-- Lower is better: latency, a penalty for relays and one point per second of age. -/
def qualityScore (p : Path) (now : UInt64) : Nat :=
  if ! p.isAlive now then 2 ^ 32 - 1
  else
    let agePenalty := (satSub now p.lastReceive).toUInt32.toNat / 1000
    let relayPenalty := if p.isDirect then 0 else 10000
    min (2 ^ 32 - 1) (min (2 ^ 32 - 1) (p.latencyMs.toNat + relayPenalty) + agePenalty)

def needsHeartbeat (p : Path) (now : UInt64) : Bool :=
  Constants.pathHeartbeatPeriod ≤ satSub now p.lastSend

end Path

/-! ### Session state -/

def helloRetryBackoffMax : UInt64 := 30000
def peerPingPeriod : UInt64 := 60000

inductive PeerState where
  | unknown
  | helloSent (sentAt packetId retryBackoffMs : UInt64)
  | active (sharedSecret : Secret) (k0 k1 : ByteVec 32) (latencyMs : UInt32)
      (lastReceive lastSend : UInt64)
  | stale (lastActive retryBackoffMs nextRetryAt : UInt64)
  deriving DecidableEq

/-- An active session with the keys derived from its secret. -/
def PeerState.newActive (pr : Primitives) (sharedSecret : Secret) (latencyMs : UInt32)
    (lastReceive lastSend : UInt64) : PeerState :=
  .active sharedSecret (ByteVec.ofBytes 32 (Kbkdf.deriveK0 pr sharedSecret).toBytes)
    (ByteVec.ofBytes 32 (Kbkdf.deriveK1 pr sharedSecret).toBytes) latencyMs lastReceive lastSend

/-! ### Peers -/

structure Peer where
  identity : Identity
  state : PeerState
  paths : List Path
  isRoot : Bool
  lastDirectPathPush : UInt64
  deriving DecidableEq

/-- A retry delay between the limits. -/
def clampBackoff (ms : UInt64) : UInt64 :=
  max Constants.pathHelloRateLimit (min ms helloRetryBackoffMax)

def satDouble (ms : UInt64) : UInt64 := UInt64.ofNat (min (2 ^ 64 - 1) (2 * ms.toNat))

namespace Peer

def new (identity : Identity) (isRoot : Bool) : Peer := ⟨identity, .unknown, [], isRoot, 0⟩

def establishSession (pr : Primitives) (p : Peer) (ourSecret : ByteVec 32) (latencyMs : UInt32)
    (now : UInt64) : Peer :=
  let sharedSecret := KeyAgreement.keyAgree pr ourSecret p.identity.publicKey.dh
  { p with state := .newActive pr sharedSecret latencyMs now now }

def bestPath (p : Peer) (now : UInt64) : Option Path :=
  minByKey (·.qualityScore now) (p.paths.filter (·.isAlive now))

def addPath (p : Peer) (addr : SocketAddr) (isDirect : Bool) (now : UInt64) : Peer :=
  if p.paths.any (·.address = addr) then
    let touch (q : Path) : Path := { q.received now with isDirect }
    { p with paths := modifyFirst (·.address = addr) touch p.paths }
  else { p with paths := p.paths ++ [{ Path.new addr now with isDirect }] }

def needsPing (p : Peer) (now : UInt64) : Bool :=
  match p.state with
  | .active _ _ _ _ _ lastSend => peerPingPeriod ≤ satSub now lastSend
  | .helloSent sentAt _ retryBackoffMs => retryBackoffMs ≤ satSub now sentAt
  | _ => false

def needsReconnect (p : Peer) (now : UInt64) : Bool :=
  match p.state with
  | .stale _ _ nextRetryAt => nextRetryAt ≤ now
  | _ => false

def onHelloSent (p : Peer) (packetId now : UInt64) : Peer :=
  match p.state with
  | .active secret k0 k1 latency lastReceive _ =>
    { p with state := .active secret k0 k1 latency lastReceive now }
  | .helloSent _ _ backoff => { p with state := .helloSent now packetId (clampBackoff (satDouble backoff)) }
  | .stale _ backoff _ => { p with state := .helloSent now packetId (clampBackoff backoff) }
  | .unknown => { p with state := .helloSent now packetId Constants.pathHelloRateLimit }

def isStale (p : Peer) (now : UInt64) : Bool :=
  match p.state with
  | .active _ _ _ _ lastReceive _ => Constants.peerActivityTimeout ≤ satSub now lastReceive
  | .helloSent sentAt _ _ => Constants.peerActivityTimeout ≤ satSub now sentAt
  | .stale _ _ _ => true
  | .unknown => false

def sharedSecret (p : Peer) : Option Secret :=
  match p.state with
  | .active secret _ _ _ _ _ => some secret
  | _ => none

def aesKeys (p : Peer) : Option (ByteVec 32 × ByteVec 32) :=
  match p.state with
  | .active _ k0 k1 _ _ _ => some (k0, k1)
  | _ => none

/-- A packet arrived directly from `addr`. -/
def promotePath (p : Peer) (addr : SocketAddr) (now : UInt64) : Peer :=
  if p.paths.any (·.address = addr) then
    let promote (q : Path) : Path := { q with isDirect := true }.received now
    { p with paths := modifyFirst (·.address = addr) promote p.paths }
  else p.addPath addr true now

def markStale (p : Peer) (now : UInt64) : Peer :=
  match p.state with
  | .active _ _ _ _ lastReceive _ => { p with state := .stale lastReceive Constants.pathHelloRateLimit now }
  | _ => p

/-! ### What an update touches -/

variable (p : Peer) (addr : SocketAddr) (now : UInt64)

theorem addPath_eq (isDirect : Bool) : ∃ paths, p.addPath addr isDirect now = { p with paths } := by
  unfold addPath
  split <;> exact ⟨_, rfl⟩

theorem promotePath_eq : ∃ paths, p.promotePath addr now = { p with paths } := by
  unfold promotePath
  split
  · exact ⟨_, rfl⟩
  · exact p.addPath_eq addr now true

/-! ### The best path -/

variable {p now} {best path : Path}

theorem bestPath_mem (h : p.bestPath now = some best) : best ∈ p.paths ∧ best.isAlive now = true :=
  List.mem_filter.mp (minByKey_mem h)

theorem bestPath_le (h : p.bestPath now = some best) (hpath : path ∈ p.paths) (halive : path.isAlive now = true) :
    best.qualityScore now ≤ path.qualityScore now :=
  minByKey_le h path (List.mem_filter.mpr ⟨hpath, halive⟩)

theorem bestPath_isSome (hpath : path ∈ p.paths) (halive : path.isAlive now = true) :
    ∃ best, p.bestPath now = some best :=
  Option.isSome_iff_exists.mp (minByKey_isSome _ (List.mem_filter.mpr ⟨hpath, halive⟩))

end Peer

end ManyTier
