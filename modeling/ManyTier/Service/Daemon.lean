import ManyTier.Controller.Engine
import ManyTier.Lib.Together
import ManyTier.Service.Datagrams
import ManyTier.Service.Moons
import ManyTier.Service.PendingFrames
import ManyTier.Service.Tun

/-! The service: one loop around the node.

Each turn of the loop takes one thing that happened, calls the node, hands the datagrams
to the transport and the frames to the devices; the calls of the API come between the
turns. A controller answers the requests a datagram brought before its turn is over.

Every turn is made of steps of the node (`daemon_madeOf`), so whatever holds of all runs
of a node holds of the service; `StepOf` says what a turn has to do with the steps it is
made of. -/
namespace ManyTier

namespace Service
variable {σ : Type}

/-- The service: its node, what its controller stores, its devices, the frames that wait,
and the markers of its networks. -/
structure Daemon (σ : Type) where
  node : Node
  records : σ
  tuns : Tuns
  pendingFrames : List PendingFrame
  lastPendingWhoisMs : UInt64
  markers : List Bytes

/-- What happens to the service. `answers` are those of the host to attempts at a device;
a call of the API comes with the outcome of its file access. -/
inductive DaemonEvent (σ : Type) where
  | bootstrap (now : UInt64)
  | udpReceived (data : Bytes) (fromAddr : SocketAddr) (now : UInt64) (answers : List (Option Bytes))
  | tick (endpoints : List SocketAddr) (now : UInt64) (answers : List (Option Bytes))
  | tunRead (networkId : UInt64) (frame : Bytes) (now : UInt64)
  | configRequestTimer (now : UInt64)
  | pendingRetryTimer (now : UInt64)
  | joinNetwork (id : Bytes) (written : Bool)
  | leaveNetwork (id : Bytes) (removed : Bool)
  | orbitMoon (id : Bytes) (file : Option Bytes)
  | deorbitMoon (id : Bytes)
  | changeRecords (records : σ)

inductive ApiReply where
  | network (reply : Except StatusCode NetworkResponse)
  | moon (reply : Except StatusCode MoonResponse)
  | status (code : StatusCode)

/-- What a turn gives: datagrams, calls for the devices, what the API answers. `calls` and
`handed` record the packets it received and the actions it handled for the devices. -/
structure DaemonOutput where
  sent : List (Bytes × SocketAddr)
  tunCalls : List TunCall
  reply : Option ApiReply
  calls : List Call
  handed : List NodeAction

def DaemonOutput.none : DaemonOutput := ⟨[], [], Option.none, [], []⟩

/-- The datagrams among the actions go to the transport. -/
def executeActions (actions : List NodeAction) : List (Bytes × SocketAddr) :=
  actions.filterMap fun
    | .sendTo data address => some (data, address)
    | _ => none

/-- The size of the buffer a datagram is received in. -/
def udpBufferSize : Nat := 4096

/-- What a packet of a device is, by its first half byte. -/
def tunEthertype : Bytes → Option UInt16
  | [] => none
  | b :: _ =>
    if b >>> 4 = 4 then some Ethernet.ethertypeIpv4
    else if b >>> 4 = 6 then some Ethernet.ethertypeIpv6
    else none

def NodeAction.isLocalReply : NodeAction → Bool
  | .localReply _ _ _ => true
  | _ => false

/-- The action says that the way to a destination is not known yet. -/
def asksForPath : NodeAction → Bool
  | .whoisNeeded _ => true
  | .destinationUnknown _ => true
  | _ => false

/-- A frame is held if it brought no datagram and no reply, and its destination is asked
for. -/
def holds (actions : List NodeAction) : Bool :=
  ! flushes actions && ! actions.any NodeAction.isLocalReply && actions.any asksForPath

def pendingFrameWhoisIntervalMs : UInt64 := 1000

section
variable (pr : Primitives) (engine : Option (Controller.Engine σ))

/-! ### The controller -/

/-- A request goes to the controller. What it issues is recorded and sent; where it fails,
what it stored so far stays. -/
def handleControllerAction (engine : Controller.Engine σ) (now : UInt64) (s : Node × σ) :
    NodeAction → Except Fault (Node × σ)
  | .networkConfigRequested requesterAddress networkId _ fromAddr packetId =>
    match (engine.handleConfigRequest pr networkId requesterAddress now).run s.2 with
    | (.error (.fault e), _) => .error e
    | (.error (.error _), records) => .ok (s.1, records)
    | (.ok response, records) => do
      let n := match response.credentials.com with
        | some com => recordPeerCom s.1 networkId requesterAddress com
        | none => s.1
      let n ← respondConfig pr n requesterAddress packetId networkId response.config.dictData response.credentials fromAddr
      return (n, records)
  | _ => .ok s

def handleControllerActions (engine : Controller.Engine σ) (now : UInt64) (s : Node × σ) (actions : List NodeAction) :
    Except Fault (Node × σ) :=
  actions.foldlM (handleControllerAction pr engine now) s

/-- The requests among the actions, answered if there is a controller. -/
def answerRequests (now : UInt64) (s : Node × σ) (actions : List NodeAction) : Except Fault (Node × σ) :=
  match engine with
  | none => .ok s
  | some engine => handleControllerActions pr engine now s actions

/-! ### Turns -/

namespace Daemon

def bootstrap (d : Daemon σ) (now : UInt64) : Daemon σ × DaemonOutput :=
  let called := d.node.bootstrap pr now
  let drained := drainWhoisActions pr called.1 called.2 now
  ({ d with node := drained.1 }, { DaemonOutput.none with sent := executeActions called.2 ++ executeActions drained.2 })

def udpReceived (d : Daemon σ) (data : Bytes) (fromAddr : SocketAddr) (now : UInt64) (answers : List (Option Bytes)) :
    Except Fault (Daemon σ × DaemonOutput) := do
  let received ← d.node.receivePacket pr (data.take udpBufferSize) fromAddr now
  let (n, records) ← answerRequests pr engine now (received.node, d.records) received.actions
  let pending := n.actions
  let drained := drainWhoisActionsFromSets pr { n with actions := [] } [received.actions, pending] now
  let p := handleTunActions d.node.address (handleTunActions d.node.address ⟨d.tuns, answers, []⟩ received.actions) pending
  return ({ d with node := drained.1, records, tuns := p.tuns },
    { sent := executeActions received.actions ++ executeActions pending ++ executeActions drained.2
      tunCalls := p.calls
      reply := none
      calls := received.calls
      handed := received.actions ++ pending })

def tick (d : Daemon σ) (endpoints : List SocketAddr) (now : UInt64) (answers : List (Option Bytes)) :
    Daemon σ × DaemonOutput :=
  let ticked := (d.node.setLocalAddresses endpoints).tick pr now
  let drained := drainWhoisActions pr ticked.1 ticked.2 now
  let p := handleTunActions d.node.address ⟨d.tuns, answers, []⟩ ticked.2
  ({ d with node := drained.1, tuns := p.tuns },
    { sent := executeActions ticked.2 ++ executeActions drained.2
      tunCalls := p.calls
      reply := none
      calls := []
      handed := ticked.2 })

def tunRead (d : Daemon σ) (networkId : UInt64) (frame : Bytes) (now : UInt64) : Except Fault (Daemon σ × DaemonOutput) :=
  match tunEthertype frame with
  | none => .ok (d, .none)
  | some ethertype => do
    let (n, actions) ← Vl2.processOutboundFrame pr d.node networkId ethertype frame d.node.address now
    let drained := drainWhoisActions pr n actions now
    let d := { d with node := drained.1 }
    let d := if holds actions then
        { d with
          pendingFrames := queuePendingFrame d.pendingFrames ⟨networkId, ethertype, frame, now⟩
          lastPendingWhoisMs := now }
      else d
    return (d, { DaemonOutput.none with sent := executeActions actions ++ executeActions drained.2 })

def configRequestTimer (d : Daemon σ) (now : UInt64) : Daemon σ × DaemonOutput :=
  let flushed := d.node.flushConfigRequests pr now
  let drained := drainWhoisActions pr flushed.1 flushed.2 now
  ({ d with node := drained.1 }, { DaemonOutput.none with sent := executeActions flushed.2 ++ executeActions drained.2 })

/-- The timer is off while no frame waits. -/
def pendingRetryTimer (d : Daemon σ) (now : UInt64) : Except Fault (Daemon σ × DaemonOutput) :=
  if d.pendingFrames.isEmpty then .ok (d, .none)
  else do
    let sendWhois := decide (pendingFrameWhoisIntervalMs ≤ satSub now d.lastPendingWhoisMs)
    let (held, transmitted) ← retryPendingFrames (nodeHost pr) ⟨d.node, d.pendingFrames⟩ now sendWhois
    return ({ d with
        node := held.node
        pendingFrames := held.pending
        lastPendingWhoisMs := if sendWhois then now else d.lastPendingWhoisMs },
      { DaemonOutput.none with sent := executeActions transmitted.sends ++ executeActions transmitted.whoisActions })

end Daemon

/-- One turn, or one call of the API. -/
def daemonStep (d : Daemon σ) : DaemonEvent σ → Except Fault (Daemon σ × DaemonOutput)
  | .bootstrap now => .ok (d.bootstrap pr now)
  | .udpReceived data fromAddr now answers => d.udpReceived pr engine data fromAddr now answers
  | .tick endpoints now answers => .ok (d.tick pr endpoints now answers)
  | .tunRead networkId frame now => d.tunRead pr networkId frame now
  | .configRequestTimer now => .ok (d.configRequestTimer pr now)
  | .pendingRetryTimer now => d.pendingRetryTimer pr now
  | .joinNetwork id written =>
    let called := Api.joinNetwork d.node d.markers d.tuns.names id written
    .ok ({ d with node := called.1.1, markers := called.1.2 }, { DaemonOutput.none with reply := some (.network called.2) })
  | .leaveNetwork id removed =>
    let called := Api.leaveNetwork d.node d.markers id removed
    .ok ({ d with node := called.1.1, markers := called.1.2 }, { DaemonOutput.none with reply := some (.status called.2) })
  | .orbitMoon id file => do
    let (n, reply) ← Api.orbitMoon pr d.node id file
    return ({ d with node := n }, { DaemonOutput.none with reply := some (.moon reply) })
  | .deorbitMoon id =>
    let called := Api.deorbitMoon d.node id
    .ok ({ d with node := called.1 }, { DaemonOutput.none with reply := some (.status called.2) })
  | .changeRecords records => .ok ({ d with records }, .none)

/-! ### What a turn comes to -/

/-- A turn or a call as it went: what it asked of the node, of the controller and of the
devices, and what it left. Every field it does not name is as it was. -/
inductive Turn (d : Daemon σ) : DaemonEvent σ → Daemon σ → DaemonOutput → Prop where
  | bootstrap {now : UInt64} {called drained : Node × List NodeAction} (hcalled : d.node.bootstrap pr now = called)
      (hdrained : drainWhoisActions pr called.1 called.2 now = drained) :
      Turn d (.bootstrap now) { d with node := drained.1 }
        { DaemonOutput.none with sent := executeActions called.2 ++ executeActions drained.2 }
  | udpReceived {data : Bytes} {fromAddr : SocketAddr} {now : UInt64} {answers : List (Option Bytes)} {received : Received}
      {n : Node} {records : σ} {drained : Node × List NodeAction} {p : TunProgress}
      (hreceived : d.node.receivePacket pr (data.take udpBufferSize) fromAddr now = .ok received)
      (hanswered : answerRequests pr engine now (received.node, d.records) received.actions = .ok (n, records))
      (hdrained : drainWhoisActionsFromSets pr { n with actions := [] } [received.actions, n.actions] now = drained)
      (hhandled : handleTunActions d.node.address ⟨d.tuns, answers, []⟩ (received.actions ++ n.actions) = p) :
      Turn d (.udpReceived data fromAddr now answers) { d with node := drained.1, records, tuns := p.tuns }
        { sent := executeActions received.actions ++ executeActions n.actions ++ executeActions drained.2
          tunCalls := p.calls
          reply := none
          calls := received.calls
          handed := received.actions ++ n.actions }
  | tick {endpoints : List SocketAddr} {now : UInt64} {answers : List (Option Bytes)} {ticked drained : Node × List NodeAction}
      {p : TunProgress} (hticked : (d.node.setLocalAddresses endpoints).tick pr now = ticked)
      (hdrained : drainWhoisActions pr ticked.1 ticked.2 now = drained)
      (hhandled : handleTunActions d.node.address ⟨d.tuns, answers, []⟩ ticked.2 = p) :
      Turn d (.tick endpoints now answers) { d with node := drained.1, tuns := p.tuns }
        { sent := executeActions ticked.2 ++ executeActions drained.2
          tunCalls := p.calls
          reply := none
          calls := []
          handed := ticked.2 }
  | tunIgnored {networkId : UInt64} {frame : Bytes} {now : UInt64} (hethertype : tunEthertype frame = none) :
      Turn d (.tunRead networkId frame now) d .none
  | tunRead {networkId : UInt64} {frame : Bytes} {now : UInt64} {ethertype : UInt16} {processed drained : Node × List NodeAction}
      (hethertype : tunEthertype frame = some ethertype)
      (hprocessed : Vl2.processOutboundFrame pr d.node networkId ethertype frame d.node.address now = .ok processed)
      (hdrained : drainWhoisActions pr processed.1 processed.2 now = drained) :
      Turn d (.tunRead networkId frame now)
        { d with
          node := drained.1
          pendingFrames := if holds processed.2 then queuePendingFrame d.pendingFrames ⟨networkId, ethertype, frame, now⟩
            else d.pendingFrames
          lastPendingWhoisMs := if holds processed.2 then now else d.lastPendingWhoisMs }
        { DaemonOutput.none with sent := executeActions processed.2 ++ executeActions drained.2 }
  | configRequestTimer {now : UInt64} {flushed drained : Node × List NodeAction}
      (hflushed : d.node.flushConfigRequests pr now = flushed)
      (hdrained : drainWhoisActions pr flushed.1 flushed.2 now = drained) :
      Turn d (.configRequestTimer now) { d with node := drained.1 }
        { DaemonOutput.none with sent := executeActions flushed.2 ++ executeActions drained.2 }
  | retryOff {now : UInt64} (hnone : d.pendingFrames = []) : Turn d (.pendingRetryTimer now) d .none
  | pendingRetryTimer {now : UInt64} {sendWhois : Bool} {held : HeldFrames Node} {transmitted : Transmitted}
      (hretried : retryPendingFrames (nodeHost pr) ⟨d.node, d.pendingFrames⟩ now sendWhois = .ok (held, transmitted)) :
      Turn d (.pendingRetryTimer now)
        { d with
          node := held.node
          pendingFrames := held.pending
          lastPendingWhoisMs := if sendWhois then now else d.lastPendingWhoisMs }
        { DaemonOutput.none with sent := executeActions transmitted.sends ++ executeActions transmitted.whoisActions }
  | joinNetwork {id : Bytes} {written : Bool} {called : (Node × List Bytes) × Except StatusCode NetworkResponse}
      (hcalled : Api.joinNetwork d.node d.markers d.tuns.names id written = called) :
      Turn d (.joinNetwork id written) { d with node := called.1.1, markers := called.1.2 }
        { DaemonOutput.none with reply := some (.network called.2) }
  | leaveNetwork {id : Bytes} {removed : Bool} {called : (Node × List Bytes) × StatusCode}
      (hcalled : Api.leaveNetwork d.node d.markers id removed = called) :
      Turn d (.leaveNetwork id removed) { d with node := called.1.1, markers := called.1.2 }
        { DaemonOutput.none with reply := some (.status called.2) }
  | orbitMoon {id : Bytes} {file : Option Bytes} {n : Node} {reply : Except StatusCode MoonResponse}
      (hcalled : Api.orbitMoon pr d.node id file = .ok (n, reply)) :
      Turn d (.orbitMoon id file) { d with node := n } { DaemonOutput.none with reply := some (.moon reply) }
  | deorbitMoon {id : Bytes} {called : Node × StatusCode} (hcalled : Api.deorbitMoon d.node id = called) :
      Turn d (.deorbitMoon id) { d with node := called.1 } { DaemonOutput.none with reply := some (.status called.2) }
  | changeRecords (records : σ) : Turn d (.changeRecords records) { d with records } .none

variable {pr engine} in
theorem turn_tunRead {d d' : Daemon σ} {networkId : UInt64} {frame : Bytes} {now : UInt64} {o : DaemonOutput}
    (h : d.tunRead pr networkId frame now = .ok (d', o)) : Turn pr engine d (.tunRead networkId frame now) d' o := by
  unfold Daemon.tunRead at h
  split at h
  · rename_i hethertype
    cases h
    exact .tunIgnored hethertype
  · rename_i ethertype hethertype
    obtain ⟨processed, hprocessed, heq⟩ := bind_eq_ok h
    have hturn : Turn pr engine d _ _ _ := .tunRead hethertype hprocessed rfl
    cases hholds : holds processed.2 with
    | false =>
      simp only [hholds] at heq hturn
      cases heq
      exact hturn
    | true =>
      simp only [hholds] at heq hturn
      cases heq
      exact hturn

variable {pr engine} in
/-- Every turn went in one of these ways. -/
theorem daemonStep_turn {d d' : Daemon σ} {event : DaemonEvent σ} {o : DaemonOutput}
    (h : daemonStep pr engine d event = .ok (d', o)) : Turn pr engine d event d' o := by
  cases event with
  | bootstrap now =>
    obtain ⟨rfl, rfl⟩ := Prod.mk.inj (Except.ok.inj h)
    exact .bootstrap rfl rfl
  | udpReceived data fromAddr now answers =>
    obtain ⟨received, hreceived, h⟩ := bind_eq_ok h
    obtain ⟨⟨n, records⟩, hanswered, heq⟩ := bind_eq_ok h
    obtain ⟨rfl, rfl⟩ := Prod.mk.inj (Except.ok.inj heq)
    exact .udpReceived hreceived hanswered rfl (List.foldl_append ..)
  | tick endpoints now answers =>
    obtain ⟨rfl, rfl⟩ := Prod.mk.inj (Except.ok.inj h)
    exact .tick rfl rfl rfl
  | tunRead networkId frame now => exact turn_tunRead h
  | configRequestTimer now =>
    obtain ⟨rfl, rfl⟩ := Prod.mk.inj (Except.ok.inj h)
    exact .configRequestTimer rfl rfl
  | pendingRetryTimer now =>
    change d.pendingRetryTimer pr now = .ok (d', o) at h
    unfold Daemon.pendingRetryTimer at h
    split at h
    · rename_i hnone
      cases h
      exact .retryOff (List.isEmpty_iff.mp hnone)
    · obtain ⟨⟨held, transmitted⟩, hretried, heq⟩ := bind_eq_ok h
      obtain ⟨rfl, rfl⟩ := Prod.mk.inj (Except.ok.inj heq)
      exact .pendingRetryTimer hretried
  | joinNetwork id written =>
    obtain ⟨rfl, rfl⟩ := Prod.mk.inj (Except.ok.inj h)
    exact .joinNetwork rfl
  | leaveNetwork id removed =>
    obtain ⟨rfl, rfl⟩ := Prod.mk.inj (Except.ok.inj h)
    exact .leaveNetwork rfl
  | orbitMoon id file =>
    obtain ⟨⟨n, reply⟩, hcalled, heq⟩ := bind_eq_ok h
    obtain ⟨rfl, rfl⟩ := Prod.mk.inj (Except.ok.inj heq)
    exact .orbitMoon hcalled
  | deorbitMoon id =>
    obtain ⟨rfl, rfl⟩ := Prod.mk.inj (Except.ok.inj h)
    exact .deorbitMoon rfl
  | changeRecords records =>
    obtain ⟨rfl, rfl⟩ := Prod.mk.inj (Except.ok.inj h)
    exact .changeRecords records

/-- Runs of the service. -/
abbrev DaemonRun (d : Daemon σ) (t : List (Entry (Daemon σ) (DaemonEvent σ) DaemonOutput)) (d' : Daemon σ) : Prop :=
  Run (daemonStep pr engine) d t d'

/-! ### The start -/

/-- A moon that is refused is passed over. -/
def loadMoonInto (n : Node) (moon : World) : Except Fault Node := do
  match ← n.topology.loadMoon pr moon with
  | .error _ => return n
  | .ok topology => return { n with topology }

def rejoinRemembered (n : Node) (networkId : UInt64) : Node := n.joinNetwork (.new networkId defaultNetworkMtu)

/-- A node with the planet, the moons of the files, and every network that is remembered.
The outer failure is a fault, the inner one a planet that cannot be read. -/
def startDaemon (identity : Identity) (planetData : Bytes) (initialPacketId : UInt64)
    (moonFiles : List (Bytes × Option Bytes)) (markers : List Bytes) (records : σ) :
    Except Fault (Except ProtocolError (Daemon σ)) :=
  match Node.new identity planetData initialPacketId with
  | .error e => .ok (.error e)
  | .ok n => do
    let n ← (loadMoons moonFiles).foldlM (loadMoonInto pr) n
    let n := (rememberedNetworks markers).foldl rejoinRemembered n
    return .ok { node := n, records, tuns := .empty, pendingFrames := [], lastPendingWhoisMs := 0, markers }

end

end Service

end ManyTier
