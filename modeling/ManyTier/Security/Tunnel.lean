import ManyTier.Security.Origin
import ManyTier.Service.TunRuns

/-! From device to device.

Services in any number take their turns in any order, and whoever holds the network
between them does with their datagrams what he likes, short of sealing. Since each service
is made of its node, their runs are runs of the nodes, and the origin of a frame carries
over: what a service writes to the device of a network out of a packet it opened, the
service the packet names as its source had read from its own device of that network
(`tunnel`). -/
namespace ManyTier

namespace Service
variable {ι σ : Type} [DecidableEq ι]

/-- Runs of services, each with its controller if it has one. -/
abbrev ServicesRun (pr : Primitives) (engines : ι → Option (Controller.Engine σ)) (starts : ι → Daemon σ)
    (t : List (Entry (ι → Daemon σ) (ι × DaemonEvent σ) DaemonOutput)) (ends : ι → Daemon σ) : Prop :=
  Run (together fun i => daemonStep pr (engines i)) starts t ends

/-- A service that has sealed nothing and holds nothing. -/
structure Fresh (d : Daemon σ) : Prop where
  armored : d.node.armored = []
  pending : d.pendingFrames = []

theorem armored_joinNetwork (n : Node) (membership : NetworkMembership) : (n.joinNetwork membership).armored = n.armored := by
  unfold Node.joinNetwork
  split <;> rfl

/-- A service that was started is fresh. -/
theorem startDaemon_fresh {pr : Primitives} {identity : Identity} {planetData : Bytes} {initialPacketId : UInt64}
    {moonFiles : List (Bytes × Option Bytes)} {markers : List Bytes} {records : σ} {start : Daemon σ}
    (h : startDaemon pr identity planetData initialPacketId moonFiles markers records = .ok (.ok start)) : Fresh start := by
  obtain ⟨n, m, hn, hmoons, rfl⟩ := startDaemon_eq_ok h
  have hm : m.armored = n.armored := by
    refine foldlM_rel (fun a b : Node => b.armored = a.armored) (fun _ => rfl) (fun _ _ _ h h' => h'.trans h)
      (fun moon _ a b hb => ?_) hmoons
    obtain ⟨loaded, -, heq⟩ := bind_eq_ok hb
    cases loaded with
    | error e =>
      cases heq
      rfl
    | ok topology =>
      cases heq
      rfl
  have hjoined : ∀ (networkIds : List UInt64) (n : Node), (networkIds.foldl rejoinRemembered n).armored = n.armored := by
    intro networkIds
    induction networkIds with
    | nil => exact fun _ => rfl
    | cons networkId rest ih => exact fun n => (ih _).trans (armored_joinNetwork n _)
  refine ⟨?_, rfl⟩
  show ((rememberedNetworks markers).foldl rejoinRemembered m).armored = []
  rw [hjoined, hm]
  exact (@new_own pr _ _ _ _ hn).2

variable {pr : Primitives} {engines : ι → Option (Controller.Engine σ)} {starts ends : ι → Daemon σ}
  {earlier later : List (Entry (ι → Daemon σ) (ι × DaemonEvent σ) DaemonOutput)}
  {e : Entry (ι → Daemon σ) (ι × DaemonEvent σ) DaemonOutput}

/-- A turn that receives, as the nodes see it: the steps of the turns before it, and then
the packet. -/
theorem received_nodes (hrun : ServicesRun pr engines starts (earlier ++ e :: later) ends) {data : Bytes} {fromAddr : SocketAddr}
    {now : UInt64} {answers : List (Option Bytes)} (hevent : e.part.event = .udpReceived data fromAddr now answers) :
    ∃ parts first others, List.Forall₂ (fun turn t => StepOf pr (engines turn.event.1) turn.part (t.map Entry.part) ∧
        ∀ x ∈ t, x.event.1 = turn.event.1) earlier parts ∧
      NetRun pr (fun i => (starts i).node) (parts.flatten ++ first :: others) (fun i => (e.after i).node) ∧
      first.before = (fun i => (e.before i).node) ∧
      first.event = (e.event.1, .receive (data.take udpBufferSize) fromAddr now) ∧ first.output.calls = e.output.calls ∧
      ∀ a ∈ e.output.handed, a.isForHost = true → a ∈ first.output.actions := by
  obtain ⟨hbefore, hstep⟩ := hrun.cut
  have hmade := MadeOf.together fun i => daemon_madeOf pr (engines i)
  obtain ⟨parts, hparts, hnodes⟩ := Run.unfold hmade hbefore
  obtain ⟨part, hturn, ⟨hpart, howner⟩⟩ := hmade e hstep
  obtain ⟨x, rest, hxs, -, hxevent, hxcalls, hxactions, -⟩ := hpart.received data fromAddr now answers hevent
  obtain ⟨first, others, rfl, rfl, -⟩ := List.map_eq_cons_iff.mp hxs
  exact ⟨parts, first, others, hparts, hnodes.append hturn, hturn.before_cons,
    Prod.ext (howner first List.mem_cons_self) hxevent, hxcalls, hxactions⟩

/-- A frame a service hands over out of a packet it opened was read by the sender's
service from its device of the network, in an earlier turn. -/
theorem handed_read (hrun : ServicesRun pr engines starts (earlier ++ e :: later) ends) (hfresh : ∀ i, Fresh (starts i))
    (hunforged : ∀ c ∈ e.output.calls, Unforged pr (fun i => (e.before i).node) c) {networkId : UInt64} {srcMac destMac : Mac}
    {ethertype : UInt16} {payload : Bytes} (hmem : .frameReceived networkId srcMac destMac ethertype payload ∈ e.output.handed) :
    ∃ c ∈ e.output.calls, ∃ d, c.dispatched pr = some d ∧
      Node.frameOf d = some (networkId, .frameReceived networkId srcMac destMac ethertype payload) ∧
      ((c.before.dearmor pr c.data).isSome → ∃ i, (starts i).node.address = d.source ∧ tunEthertype payload = some ethertype ∧
        ∃ e' ∈ earlier, ∃ now, e'.event = (i, .tunRead networkId payload now)) := by
  obtain ⟨hbefore, hstep⟩ := hrun.cut
  -- Only a turn that receives hands frames over, and they come from its first step.
  obtain ⟨data, fromAddr, now, answers, hevent⟩ : ∃ data fromAddr now answers,
      e.part.event = .udpReceived data fromAddr now answers := by
    obtain ⟨steps, -, hpart, -⟩ := (MadeOf.together fun i => daemon_madeOf pr (engines i)) e hstep
    cases hevent : e.part.event with
    | udpReceived data fromAddr now answers => exact ⟨data, fromAddr, now, answers, rfl⟩
    | _ =>
      have hquiet := (hpart.quiet (by rw [hevent]; rfl)).2.1 _ hmem
      cases hquiet
  obtain ⟨parts, first, others, hparts, hfirst, hfirstbefore, hxevent, hcalls, hxactions⟩ := received_nodes hrun hevent
  have hframe := hxactions _ hmem rfl
  obtain ⟨c, hc, d, hd, hframeOf, hsent⟩ := frame_given hfirst (fun i => (hfresh i).armored)
    (fun c hc => by rw [hfirstbefore]; exact hunforged c (hcalls ▸ hc)) hxevent hframe
  refine ⟨c, hcalls ▸ hc, d, hd, hframeOf, fun hopened => ?_⟩
  obtain ⟨i, hi, x', hx', now', hx'event, -⟩ := hsent hopened
  obtain ⟨turn, hmem', part', ⟨hpart', howner'⟩, hin⟩ := mem_flatten_parts hparts hx'
  obtain rfl : turn.event.1 = i := (howner' x' hin).symm.trans (congrArg Prod.fst hx'event)
  have hgiven : x'.part.event = .outboundFrame networkId ethertype payload now' := congrArg Prod.snd hx'event
  obtain ⟨hethertype, e', he', now'', hread⟩ := framed_read (hbefore.part turn.event.1) (hfresh _).pending
    (mem_stepsOf.mpr ⟨turn, hmem', rfl, rfl⟩) hpart' (List.mem_map_of_mem hin) hgiven
  obtain ⟨e'', he'', howns, rfl⟩ := mem_stepsOf.mp he'
  exact ⟨_, hi, hethertype, e'', he'', now'', Prod.ext howns hread⟩

/-- What a turn has for the devices its packets brought: the replies of a node to its host
do not come that way. -/
theorem delivered_of_handed {engine : Option (Controller.Engine σ)} {e : Entry (Daemon σ) (DaemonEvent σ) DaemonOutput}
    (h : daemonStep pr engine e.before e.event = .ok (e.after, e.output)) {a : NodeAction} (ha : a ∈ e.output.handed)
    (hhost : a.isForHost = true) : ∃ c ∈ e.output.calls, c.Delivers pr a := by
  obtain ⟨steps, hinner, hpart⟩ := daemon_madeOf pr engine e h
  cases hevent : e.event with
  | udpReceived data fromAddr now answers =>
    obtain ⟨x, rest, rfl, -, hxevent, hxcalls, hxactions, -⟩ := hpart.received data fromAddr now answers hevent
    have hreceive := hinner.steps x List.mem_cons_self
    rw [hxevent] at hreceive
    obtain ⟨r, hr, -, hout⟩ := step_receive hreceive
    have haccount : Call.Account pr x.output.calls x.output.actions := by
      rw [hout]
      exact (Node.receiveFuel_account hr).2.1
    rw [hxcalls] at haccount
    exact haccount a (hxactions a ha hhost) hhost
  | _ =>
    have hnone := (hpart.quiet (by rw [hevent]; rfl)).2.1 a ha
    rw [hhost] at hnone
    cases hnone

/-- **What comes out of a device went into one**: a packet that a service writes to the
device of a network is a frame that a packet of this turn brought; and if it was opened,
the service of the sender had read that packet from its own device of the network, in an
earlier turn. -/
theorem tunnel (hrun : ServicesRun pr engines starts (earlier ++ e :: later) ends) (hfresh : ∀ i, Fresh (starts i))
    (hunforged : ∀ c ∈ e.output.calls, Unforged pr (fun i => (e.before i).node) c) {networkId : UInt64} {payload : Bytes}
    (hwritten : .write networkId payload ∈ e.output.tunCalls) :
    ∃ c ∈ e.output.calls, ∃ d srcMac destMac ethertype, c.dispatched pr = some d ∧
      Node.frameOf d = some (networkId, .frameReceived networkId srcMac destMac ethertype payload) ∧
      ((c.before.dearmor pr c.data).isSome → ∃ i, (starts i).node.address = d.source ∧ tunEthertype payload = some ethertype ∧
        ∃ e' ∈ earlier, ∃ now, e'.event = (i, .tunRead networkId payload now)) := by
  obtain ⟨-, hstep⟩ := hrun.cut
  obtain ⟨hlocal, -⟩ := together_eq_ok hstep
  obtain ⟨answers, -, hcalls⟩ := daemonStep_tuns hlocal
  have hmem : .write networkId payload ∈ e.part.output.tunCalls := hwritten
  rw [hcalls] at hmem
  obtain ⟨a, ha, hpayload⟩ := (write_handled hmem).resolve_left List.not_mem_nil
  cases a with
  | localReply id ethertype data =>
    obtain ⟨c, -, d, networkId', -, hframe, -⟩ := delivered_of_handed hlocal ha rfl
    cases Node.isFrame_frameOf hframe
  | frameReceived id srcMac destMac ethertype data =>
    obtain ⟨rfl, rfl⟩ : id = networkId ∧ data = payload := by simpa [payloadFor] using hpayload
    obtain ⟨c, hc, d, hd, hframe, hread⟩ := handed_read hrun hfresh hunforged ha
    exact ⟨c, hc, d, srcMac, destMac, ethertype, hd, hframe, hread⟩
  | _ => cases hpayload

/-! ### Two services -/

section
open SampleFrame

/-- The two members, each with a device for the network. -/
def sampleServices (i : Bool) : Daemon Unit where
  node := sampleMembers i
  records := ()
  tuns := ⟨SortedMap.empty.insert Sample.networkId ⟨ascii ['z', 't', '0'], 2800⟩,
    SortedMap.empty.insert Sample.networkId (ascii ['z', 't', '0'])⟩
  pendingFrames := []
  lastPendingWhoisMs := 0
  markers := []

/-- The packet that number 3 writes to its device number 1 had read from its own. -/
theorem tunnel_two : ∃ (e e' : Entry (Bool → Daemon Unit) (Bool × DaemonEvent Unit) DaemonOutput) (ends : Bool → Daemon Unit)
    (i : Bool) (now : UInt64), ServicesRun Sample.primitives (fun _ => none) sampleServices ([e'] ++ e :: []) ends ∧
      e.output.tunCalls = [.write Sample.networkId frame] ∧ e'.event = (i, .tunRead Sample.networkId frame now) := by
  have hcheck : okWith (together (fun _ => daemonStep Sample.primitives none) sampleServices
      (true, .tunRead Sample.networkId frame 2000)) (fun r =>
        okWith (together (fun _ => daemonStep Sample.primitives none) r.1
          (false, .udpReceived ((r.2.sent.map Prod.fst).headD []) (Sample.endpoint 10) 2001 [])) fun r' =>
            r'.2.tunCalls = [.write Sample.networkId frame] &&
              r'.2.calls.all fun c => (c.before.dearmor Sample.primitives c.data).isSome &&
                (r.1 true).node.armored.any fun a => Salsa.cipherSuite a.packet = 1 &&
                  okWith (Salsa.armorPacket Sample.primitives a.secret a.packet true) (fun sealed => sealed = c.data) &&
                  c.before.sharedSecretForPeer Sample.primitives (PacketHeader.read c.data).source = some a.secret) = true := by
    decide +kernel
  obtain ⟨⟨between, o₁⟩, hsend, hcheck⟩ := exists_of_okWith hcheck
  obtain ⟨⟨ends, o₂⟩, hreceive, hcheck⟩ := exists_of_okWith hcheck
  simp only [Bool.and_eq_true, decide_eq_true_eq, List.all_eq_true, List.any_eq_true] at hcheck
  obtain ⟨hwritten, hall⟩ := hcheck
  have hrun := (Run.one hsend).snoc hreceive
  have hunforged : ∀ c ∈ o₂.calls, Unforged Sample.primitives (fun i => (between i).node) c := by
    intro c hc opened _
    obtain ⟨-, a, ha, ⟨hsuite, harmor⟩, hsecret⟩ := hall c hc
    obtain ⟨sealed, hsealed, hdata⟩ := exists_of_okWith harmor
    obtain rfl : sealed = c.data := of_decide_eq_true hdata
    exact ⟨true, a, ha, c.data, ⟨true, hsuite, hsealed⟩, .refl _, hsecret⟩
  have hmem : .write Sample.networkId frame ∈ o₂.tunCalls := by
    rw [hwritten]
    exact List.mem_cons_self
  obtain ⟨c, hc, d, _, _, _, -, -, hread⟩ := tunnel hrun (fun i => by cases i <;> exact ⟨rfl, rfl⟩) hunforged hmem
  obtain ⟨i, -, -, e', he', now, hevent⟩ := hread (hall c hc).1
  obtain rfl := List.mem_singleton.mp he'
  exact ⟨_, _, ends, i, now, hrun, hwritten, hevent⟩

end

end Service

end ManyTier
