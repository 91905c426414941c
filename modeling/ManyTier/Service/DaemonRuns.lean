import ManyTier.Controller.Trust
import ManyTier.Security.Origin
import ManyTier.Service.Turns

/-! What holds of a service from its start on.

A start is a run of a new node, and so is all that comes after it (`run_started`). What
the service sends is therefore accounted for as what a node sends is, and the frames in it
go back to packets the host wrote to the device of the network (`daemon_explained`): the
frames that wait are such packets (`run_held`), at most 64 of them. -/
namespace ManyTier

namespace Service
variable {σ : Type} {pr : Primitives} {engine : Option (Controller.Engine σ)}

/-! ### The start -/

theorem run_loadMoonInto {moons : List World} {n n' : Node} (h : moons.foldlM (loadMoonInto pr) n = .ok n') :
    ∃ t, NodeRun pr n t n' ∧ (∀ x ∈ t, kind x.event = .call) ∧ n'.networks = n.networks := by
  induction moons generalizing n with
  | nil =>
    cases h
    exact ⟨[], .nil, fun _ h => (nomatch h), rfl⟩
  | cons moon rest ih =>
    rw [List.foldlM_cons] at h
    obtain ⟨m, hm, hrest⟩ := bind_eq_ok h
    obtain ⟨t, hrun, hkind, hnetworks⟩ := ih hrest
    obtain ⟨loaded, hloaded, heq⟩ := bind_eq_ok hm
    have hstep : step pr n (.loadMoon moon) = .ok (m, ⟨[], []⟩) ∧ m.networks = n.networks := by
      cases loaded with
      | error e =>
        cases heq
        refine ⟨?_, rfl⟩
        simp only [step, hloaded]
        rfl
      | ok topology =>
        cases heq
        refine ⟨?_, rfl⟩
        simp only [step, hloaded]
        rfl
    refine ⟨_ :: t, (Run.one hstep.1).append hrun, fun x hx => ?_, hnetworks.trans hstep.2⟩
    rcases List.mem_cons.mp hx with rfl | hx
    · rfl
    · exact hkind x hx

variable (pr) in
theorem run_rejoinRemembered (networkIds : List UInt64) (n : Node) :
    ∃ t, NodeRun pr n t (networkIds.foldl rejoinRemembered n) ∧ ∀ x ∈ t, kind x.event = .call := by
  induction networkIds generalizing n with
  | nil => exact ⟨[], .nil, fun _ h => nomatch h⟩
  | cons networkId rest ih =>
    obtain ⟨t, hrun, hkind⟩ := ih (rejoinRemembered n networkId)
    have hstep : step pr n (.joinNetwork (.new networkId defaultNetworkMtu)) =
        .ok (rejoinRemembered n networkId, ⟨[], []⟩) := rfl
    refine ⟨_ :: t, (Run.one hstep).append hrun, fun x hx => ?_⟩
    rcases List.mem_cons.mp hx with rfl | hx
    · rfl
    · exact hkind x hx

section
variable {identity : Identity} {planetData : Bytes} {initialPacketId : UInt64} {moonFiles : List (Bytes × Option Bytes)}
  {markers : List Bytes} {records : σ} {start : Daemon σ}

/-- A start: a new node, its moons and networks, and nothing yet of the rest. -/
theorem startDaemon_eq_ok (h : startDaemon pr identity planetData initialPacketId moonFiles markers records = .ok (.ok start)) :
    ∃ n m, Node.new identity planetData initialPacketId = .ok n ∧ (loadMoons moonFiles).foldlM (loadMoonInto pr) n = .ok m ∧
      start = { node := (rememberedNetworks markers).foldl rejoinRemembered m, records, tuns := .empty, pendingFrames := []
                lastPendingWhoisMs := 0, markers } := by
  unfold startDaemon at h
  split at h
  · cases h
  · rename_i n hn
    obtain ⟨m, hm, heq⟩ := bind_eq_ok h
    cases heq
    exact ⟨n, m, hn, hm, rfl⟩

/-- The node of a start is reached from a new one by calls of the API. -/
theorem run_start (h : startDaemon pr identity planetData initialPacketId moonFiles markers records = .ok (.ok start)) :
    ∃ n t, Node.new identity planetData initialPacketId = .ok n ∧ NodeRun pr n t start.node ∧ ∀ x ∈ t, kind x.event = .call := by
  obtain ⟨n, m, hn, hmoons, rfl⟩ := startDaemon_eq_ok h
  obtain ⟨t, hrun, hkind, -⟩ := run_loadMoonInto hmoons
  obtain ⟨t', hrun', hkind'⟩ := run_rejoinRemembered pr (rememberedNetworks markers) m
  refine ⟨n, t ++ t', hn, hrun.append hrun', fun x hx => ?_⟩
  rcases List.mem_append.mp hx with hx | hx
  · exact hkind x hx
  · exact hkind' x hx

end

/-! ### Frames that wait -/

section
variable {start d : Daemon σ} {t : List (Entry (Daemon σ) (DaemonEvent σ) DaemonOutput)}

/-- In one of the turns a packet came from the device of the network. -/
def ReadIn (t : List (Entry (Daemon σ) (DaemonEvent σ) DaemonOutput)) (networkId : UInt64) (ethertype : UInt16)
    (payload : Bytes) : Prop :=
  tunEthertype payload = some ethertype ∧ ∃ e ∈ t, ∃ now, e.event = .tunRead networkId payload now

theorem ReadIn.mono {t t' : List (Entry (Daemon σ) (DaemonEvent σ) DaemonOutput)} {networkId : UInt64} {ethertype : UInt16}
    {payload : Bytes} (h : ReadIn t networkId ethertype payload) (hsub : ∀ e ∈ t, e ∈ t') :
    ReadIn t' networkId ethertype payload := by
  obtain ⟨hethertype, e, he, hevent⟩ := h
  exact ⟨hethertype, e, hsub e he, hevent⟩

theorem mem_pushBounded {α : Type} {bound : Nat} {l : List α} {a b : α} (h : b ∈ pushBounded bound l a) : b ∈ l ∨ b = a := by
  rcases List.mem_append.mp h with h | h
  · split at h
    · exact .inl (List.mem_of_mem_tail h)
    · exact .inl h
  · exact .inr (List.mem_singleton.mp h)

/-- Frames wait since before, or the one just read does. -/
theorem daemonStep_held {e : Entry (Daemon σ) (DaemonEvent σ) DaemonOutput}
    (h : daemonStep pr engine e.before e.event = .ok (e.after, e.output)) :
    (e.before.pendingFrames.length ≤ pendingFrameLimit → e.after.pendingFrames.length ≤ pendingFrameLimit) ∧
    ∀ held, held ∈ e.after.pendingFrames → held ∈ e.before.pendingFrames ∨
      (tunEthertype held.frame = some held.ethertype ∧ e.event = .tunRead held.networkId held.frame held.queuedAtMs) := by
  obtain ⟨d, event, o, d'⟩ := e
  cases daemonStep_turn (show daemonStep pr engine d event = .ok (d', o) from h) with
  | @tunRead networkId frame now ethertype processed drained hethertype hprocessed hdrained =>
    dsimp only
    split
    · refine ⟨fun hbound => length_pushBounded_le (by decide) hbound _, fun held hheld => ?_⟩
      rcases mem_pushBounded hheld with hbefore | rfl
      · exact .inl hbefore
      · exact .inr ⟨hethertype, rfl⟩
    · exact ⟨id, fun held hheld => .inl hheld⟩
  | pendingRetryTimer hretried =>
    obtain ⟨found, haccounts⟩ := retry_accounts hretried
    obtain ⟨-, hsublist⟩ := haccounts.inOrder
    exact ⟨hsublist.length_le.trans, fun frame hframe => .inl (hsublist.subset hframe)⟩
  | _ => exact ⟨id, fun held hheld => .inl hheld⟩

/-- Every frame that waits was read from its device. -/
theorem run_held (hrun : DaemonRun pr engine start t d) (hstart : start.pendingFrames = []) {held : PendingFrame}
    (hheld : held ∈ d.pendingFrames) : ReadIn t held.networkId held.ethertype held.frame := by
  rcases hrun.origin (fun d held => held ∈ d.pendingFrames) _ (fun e he => (daemonStep_held he).2) hheld with
    hbefore | ⟨e, he, hethertype, hevent⟩
  · rw [hstart] at hbefore
    cases hbefore
  · exact ⟨hethertype, e, he, _, hevent⟩

/-- Whatever a turn gives to the node as a frame of the host was read from the device of
its network. -/
theorem framed_read {e : Entry (Daemon σ) (DaemonEvent σ) DaemonOutput} {part : List (Entry Node Event Output)}
    (hrun : DaemonRun pr engine start t d) (hstart : start.pendingFrames = []) (he : e ∈ t) (hpart : StepOf pr engine e part)
    {x : Entry Node Event Output} (hx : x ∈ part) {networkId : UInt64} {ethertype : UInt16} {payload : Bytes} {now : UInt64}
    (hevent : x.event = .outboundFrame networkId ethertype payload now) : ReadIn t networkId ethertype payload := by
  rcases hpart.framed x hx networkId ethertype payload now hevent with ⟨hread, hethertype⟩ | ⟨held, hheld, rfl, rfl, rfl⟩
  · exact ⟨hethertype, e, he, now, hread⟩
  · obtain ⟨earlier, later, rfl⟩ := List.append_of_mem he
    obtain ⟨hbefore, -⟩ := hrun.cut
    exact (run_held hbefore hstart hheld).mono fun _ => List.mem_append_left _

end

/-! ### Datagrams -/

theorem tunEthertype_ne_arp {payload : Bytes} : tunEthertype payload ≠ some Ethernet.ethertypeArp := by
  unfold tunEthertype
  split
  · exact fun h => nomatch h
  · split
    · exact fun h => absurd (Option.some.inj h) (by decide)
    · split
      · exact fun h => absurd (Option.some.inj h) (by decide)
      · exact fun h => nomatch h

/-- A run keeps the address of its node. -/
theorem run_address {n n' : Node} {t : List (Entry Node Event Output)} (hrun : NodeRun pr n t n') : n'.address = n.address :=
  hrun.invariant (fun m => m.address = n.address) (fun _ => True)
    (fun _ he _ hbefore => (congrArg (·.address.bytes) (step_emits he).identity).trans hbefore) rfl fun _ _ => trivial

/-- It keeps the identity, throughout. -/
theorem run_identity {n n' : Node} {t : List (Entry Node Event Output)} (hrun : NodeRun pr n t n') :
    ∀ x ∈ t, x.before.identity = n.identity :=
  hrun.forall_entries (fun m => m.identity = n.identity) (fun _ => True) _
    (fun _ he _ hbefore => ⟨(step_emits he).identity.trans hbefore, hbefore⟩) rfl fun _ _ => trivial

/-- The history of a node has what a step of its run left in it. -/
theorem run_kept_after {n n' : Node} {t : List (Entry Node Event Output)} (hrun : NodeRun pr n t n')
    {x : Entry Node Event Output} (hx : x ∈ t) {a : Armored} (ha : a ∈ x.after.armored) : a ∈ n'.armored := by
  induction hrun with
  | nil => cases hx
  | snoc _ hstep ih =>
    rcases List.mem_append.mp hx with hx | hx
    · exact (step_emits (e := ⟨_, _, _, _⟩) hstep).kept a (ih hx)
    · obtain rfl := List.mem_singleton.mp hx
      exact ha

section
variable {identity : Identity} {planetData : Bytes} {initialPacketId : UInt64} {moonFiles : List (Bytes × Option Bytes)}
  {markers : List Bytes} {records : σ} {start d : Daemon σ} {t : List (Entry (Daemon σ) (DaemonEvent σ) DaemonOutput)}

/-- The node of a service from a new one on: what it took to start, and the steps of each
turn. -/
theorem run_started (hstart : startDaemon pr identity planetData initialPacketId moonFiles markers records = .ok (.ok start))
    (hrun : DaemonRun pr engine start t d) :
    ∃ n before parts, Node.new identity planetData initialPacketId = .ok n ∧ (∀ x ∈ before, kind x.event = .call) ∧
      List.Forall₂ (StepOf pr engine) t parts ∧ NodeRun pr n before start.node ∧ NodeRun pr start.node parts.flatten d.node := by
  obtain ⟨n, before, hnew, hbefore, hkind⟩ := run_start hstart
  obtain ⟨parts, hparts, hinner⟩ := Run.unfold (daemon_madeOf pr engine) hrun
  exact ⟨n, before, parts, hnew, hkind, hparts, hbefore, hinner⟩

/-- A packet that brings a frame one of the turns read, from us to a member of its network. -/
def BringsRead (ours : ByteVec 5) (t : List (Entry (Daemon σ) (DaemonEvent σ) DaemonOutput)) (packet : Bytes) : Prop :=
  ∃ networkId ethertype payload, ReadIn t networkId ethertype payload ∧
    ∃ n : Node, n.address = ours ∧ n.FrameOf networkId ethertype payload packet

/-- A packet that brings what the controller issued in one of the turns, from us to whoever
asked. -/
def BringsIssued (pr : Primitives) (engine : Option (Controller.Engine σ)) (ours : Identity)
    (t : List (Entry (Daemon σ) (DaemonEvent σ) DaemonOutput)) (packet : Bytes) : Prop :=
  ∃ c requester networkId response requestPacketId, engine = some c ∧
    (∃ e ∈ t, IssuedIn pr c e requester networkId response) ∧ ∃ n : Node, n.identity = ours ∧
      GrantOf pr n requester requestPacketId networkId response.config.dictData response.credentials packet

theorem new_own {n : Node} (h : Node.new identity planetData initialPacketId = .ok n) :
    OwnHistory pr identity.address.bytes n ∧ n.armored = [] := by
  obtain ⟨planet, -, heq⟩ := bind_eq_ok h
  cases heq
  exact ⟨⟨rfl, fun _ h => (nomatch h), fun _ _ h => (nomatch h)⟩, rfl⟩

/-- **Whatever is done to a service, what it sends is sealed by its node, of frames only
what the host wrote to their network's device before and of configurations only what its
controller issued, or it is passed on for another.** -/
theorem daemon_explained (pr : Primitives) (engine : Option (Controller.Engine σ))
    {earlier later : List (Entry (Daemon σ) (DaemonEvent σ) DaemonOutput)} {e : Entry (Daemon σ) (DaemonEvent σ) DaemonOutput}
    (hstart : startDaemon pr identity planetData initialPacketId moonFiles markers records = .ok (.ok start))
    (hrun : DaemonRun pr engine start (earlier ++ e :: later) d) :
    (∀ a ∈ e.after.node.armored, ∃ encrypt,
      Drafted identity.address.bytes (fun packet => BringsRead identity.address.bytes (earlier ++ [e]) packet ∨
        BringsIssued pr engine identity (earlier ++ [e]) packet) a.packet encrypt) ∧
    ∀ data address, (data, address) ∈ e.output.sent →
      Recorded pr e.after.node.armored data ∨ PassedBy identity.address.bytes e.output.calls data := by
  obtain ⟨hbefore, hstep⟩ := hrun.cut
  have hturns : DaemonRun pr engine start (earlier ++ [e]) e.after := hbefore.snoc hstep
  have hpending : start.pendingFrames = [] := by
    obtain ⟨n, m, -, -, rfl⟩ := startDaemon_eq_ok hstart
    rfl
  obtain ⟨n, before, turns, hnew, hkind, hrest, hfirst, hnode⟩ := run_started hstart hbefore
  obtain ⟨part, hlast, hpart⟩ := daemon_madeOf pr engine e hstep
  have hparts : List.Forall₂ (StepOf pr engine) (earlier ++ [e]) (turns ++ [part]) := List.rel_append hrest (.cons hpart .nil)
  obtain ⟨hown, harmored⟩ := @new_own pr _ _ _ _ hnew
  have hall : NodeRun pr n (before ++ (turns ++ [part]).flatten) e.after.node := by
    rw [List.flatten_append, List.flatten_singleton]
    exact hfirst.append (hnode.append hlast)
  have hours : n.address = identity.address.bytes := hown.address
  have hidentity : n.identity = identity := by
    obtain ⟨planet, -, heq⟩ := bind_eq_ok hnew
    cases heq
    rfl
  have howns : ∀ x ∈ before ++ (turns ++ [part]).flatten, OwnHistory pr identity.address.bytes x.before ∧
      OwnHistory pr identity.address.bytes x.after :=
    hall.forall_entries (OwnHistory pr identity.address.bytes) (fun _ => True) _
      (fun x hx _ hb => ⟨hb.step (step_emits hx), hb, hb.step (step_emits hx)⟩) hown fun _ _ => trivial
  refine ⟨fun a ha => ?_, fun data address hmem => ?_⟩
  · obtain ⟨-, hhistory⟩ := run_history hall harmored
    obtain ⟨x, hx, encrypt, hdrafted⟩ := hhistory a ha
    rw [hours] at hdrafted
    refine ⟨encrypt, hdrafted.mono fun packet htold => ?_⟩
    rcases List.mem_append.mp hx with hx' | hx'
    · have hcall := hkind x hx'
      rcases htold with ⟨_, _, _, _, hevent, -⟩ | ⟨_, _, _, _, _, _, hevent, -⟩ <;>
        · rw [hevent] at hcall
          cases hcall
    · obtain ⟨turn, hturn, part, hpart, hmem⟩ := mem_flatten_parts hparts hx'
      rcases htold with ⟨networkId, ethertype, payload, now, hevent, hframe⟩ |
        ⟨requester, requestPacketId, networkId, dictData, credentials, fromAddr, hevent, hgrant⟩
      · exact .inl ⟨networkId, ethertype, payload, framed_read hturns hpending hturn hpart hmem hevent, x.before,
          (howns x hx).1.address, hframe⟩
      · obtain ⟨c, response, hc, hissued, rfl, rfl⟩ := hpart.issued hmem hevent
        exact .inr ⟨c, requester, networkId, response, requestPacketId, hc, ⟨turn, hturn, hissued⟩, x.before,
          (run_identity hall x hx).trans hidentity, hgrant⟩
  · obtain ⟨x, hx, hgiven⟩ := hpart.sent data address hmem
    have hx' : x ∈ before ++ (turns ++ [part]).flatten := by
      simp [hx]
    obtain ⟨hxbefore, hxafter⟩ := howns x hx'
    have hrecorded : Recorded pr x.after.armored data → Recorded pr e.after.node.armored data :=
      fun h => h.mono fun a ha => run_kept_after hall hx' ha
    rcases hgiven with ⟨hsent, hcalls⟩ | hqueued
    · rcases (step_emits (hall.steps x hx')).handed data address hsent with hown | ⟨c, hc, hdest, hhop⟩ |
        ⟨networkId, payload, now, hevent, -⟩
      · exact .inl (hrecorded hown)
      · exact .inr ⟨c, hcalls hc, hxbefore.address ▸ hdest, hhop⟩
      · have hread := framed_read hturns hpending (List.mem_append_right _ List.mem_cons_self) hpart hx hevent
        exact absurd hread.1 tunEthertype_ne_arp
    · exact .inl (hrecorded (hxafter.queued data address hqueued))

end

/-! ### A start -/

/-- Number 1 with one network to join. -/
def sampleDaemon : Daemon Unit where
  node := rejoinRemembered Sample.start Sample.networkId
  records := ()
  tuns := .empty
  pendingFrames := []
  lastPendingWhoisMs := 0
  markers := [networkMarker Sample.networkId]

theorem sample_startDaemon (markers : List Bytes) : startDaemon Sample.primitives (Sample.identity 1)
    Sample.planet.serialize 1 [] markers () =
      .ok (.ok { sampleDaemon with node := (rememberedNetworks markers).foldl rejoinRemembered Sample.start, markers }) := by
  unfold startDaemon
  rw [Sample.new_start]
  rfl

theorem sampleDaemon_start : startDaemon Sample.primitives (Sample.identity 1) Sample.planet.serialize 1 []
    [networkMarker Sample.networkId] () = .ok (.ok sampleDaemon) := by
  have hremembered : rememberedNetworks [networkMarker Sample.networkId] = [Sample.networkId] := by
    rw [rememberedNetworks, List.filterMap_cons, markedNetwork_networkMarker]
    rfl
  rw [sample_startDaemon, hremembered]
  rfl

section
open Controller.SampleMembers

/-- Number 1 with a controller that has number 2 on record as a member. -/
def sampleController : Daemon Controller.InMemoryStorage where
  node := Sample.start
  records := twoMembers
  tuns := .empty
  pendingFrames := []
  lastPendingWhoisMs := 0
  markers := []

theorem sampleController_start : startDaemon Sample.primitives (Sample.identity 1) Sample.planet.serialize 1 [] [] twoMembers =
    .ok (.ok sampleController) := by
  unfold startDaemon
  rw [Sample.new_start]
  rfl

/-- Number 2 asks for its configuration. -/
def sampleRequest : Bytes :=
  Sample.sentBy 2 9 .networkConfigRequest (NetworkConfigRequestPayload.serialize ⟨networkId, []⟩)

/-- The configuration and the credentials that are sent in answer are of the node's history,
and whatever is there was drafted as it may be. -/
theorem daemon_explained_answer : ∃ (e : Entry (Daemon Controller.InMemoryStorage) (DaemonEvent Controller.InMemoryStorage)
    DaemonOutput) (d : Daemon Controller.InMemoryStorage),
    DaemonRun Sample.primitives (some Controller.SampleMembers.engine) sampleController ([] ++ e :: []) d ∧
      e.event = .udpReceived sampleRequest (Sample.endpoint 20) 2000 [] ∧ e.output.sent.length = 2 ∧
      (∀ a ∈ e.after.node.armored, ∃ encrypt, Drafted (address 1) (fun packet => BringsRead (address 1) [e] packet ∨
        BringsIssued Sample.primitives (some Controller.SampleMembers.engine) (Sample.identity 1) [e] packet) a.packet encrypt) ∧
      ∀ data target, (data, target) ∈ e.output.sent →
        Recorded Sample.primitives e.after.node.armored data ∨ PassedBy (address 1) e.output.calls data := by
  have hanswers : okWith (daemonStep Sample.primitives (some Controller.SampleMembers.engine) sampleController
      (.udpReceived sampleRequest (Sample.endpoint 20) 2000 [])) (fun r => r.2.sent.length = 2) = true := by
    decide +kernel
  obtain ⟨⟨d, o⟩, hstep, htwo⟩ := exists_of_okWith hanswers
  have hrun : DaemonRun Sample.primitives (some Controller.SampleMembers.engine) sampleController
      ([] ++ ⟨sampleController, .udpReceived sampleRequest (Sample.endpoint 20) 2000 [], o, d⟩ :: []) d := Run.one hstep
  obtain ⟨hdrafted, hsent⟩ := daemon_explained Sample.primitives (some Controller.SampleMembers.engine)
    sampleController_start hrun
  exact ⟨_, d, hrun, rfl, of_decide_eq_true htwo, hdrafted, hsent⟩

end

end Service

end ManyTier
