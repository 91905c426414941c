import ManyTier.Node.Nesting
import ManyTier.Node.Steady
import ManyTier.Service.Machine

/-! How often `handleFragment` runs for one datagram.

A packet that a fragment completes is received like any other datagram, so it may be
taken for a fragment again. The packets that wait for their source never are
(`WaitingWhole`), so the runs for one datagram form a chain: each after the first is for
the packet the one before it completed. A link costs the header of a fragment, so the
bytes at hand bound the chain. -/
namespace ManyTier

/-- The packet a datagram completes, if it is a fragment that does. -/
def ReassemblyBuffer.completes (b : ReassemblyBuffer) (data : Bytes) (now : UInt64) : Option Bytes :=
  if isFragment data ∧ Constants.minFragmentLength < data.length then (b.insertPiece data now).2 else none

/-- How often a fragment was handled. -/
def Received.fragmentRuns (r : Received) : Nat := r.calls.countP fun c => isFragment c.data

namespace Node

/-- No packet that waits for its source is a fragment. -/
def WaitingWhole (n : Node) : Prop := ∀ w ∈ n.pendingEncryptedPackets, isFragment w.data = false

theorem WaitingWhole.of_waiting {n n' : Node} (h : n.WaitingWhole)
    (heq : n'.pendingEncryptedPackets = n.pendingEncryptedPackets) : n'.WaitingWhole := by
  intro w hw
  rw [heq] at hw
  exact h w hw

variable {pr : Primitives}

theorem WaitingWhole.dropUnopened {n : Node} (h : n.WaitingWhole) {data : Bytes} (hwhole : isFragment data = false)
    (fromAddr : SocketAddr) (now : UInt64) : (n.dropUnopened data fromAddr now).WaitingWhole := by
  unfold Node.dropUnopened
  simp only
  split
  · intro w hw
    simp only [pushAction, queuePendingEncryptedPacket] at hw
    have hkept : ∀ {p : PendingEncryptedPacket → Bool}, w ∈ n.pendingEncryptedPackets.filter p →
        isFragment w.data = false := fun hw => h w (List.mem_filter.mp hw).1
    split at hw
    · exact hkept hw
    · rcases List.mem_append.mp hw with hw | hw
      · split at hw
        · exact hkept (List.mem_of_mem_tail hw)
        · exact hkept hw
      · obtain rfl := List.mem_singleton.mp hw
        exact hwhole
  · exact h

theorem WaitingWhole.finished {n n' : Node} (h : n.WaitingWhole) {data : Bytes} {fromAddr : SocketAddr} {now : UInt64}
    (hadmitted : n.admitPacket pr data fromAddr now = .finished n') : n'.WaitingWhole := by
  obtain ⟨hwhole, rfl | rfl | rfl⟩ := admitPacket_finished hadmitted
  · exact h
  · exact h.of_waiting (onlySends_handleRelay pr { n with actions := [] } data now).pendingEncrypted
  · exact WaitingWhole.dropUnopened (n := { n with actions := [] }) h hwhole fromAddr now

/-- A handler that makes no call leaves the packets that wait. -/
theorem waiting_handleAlone {d : Dispatch} {fromAddr : SocketAddr} {now : UInt64} {n' : Node}
    (h : handleAlone pr d fromAddr now = .ok n') :
    n'.pendingEncryptedPackets = d.node.pendingEncryptedPackets := by
  rcases handleAlone_steady pr h with hsteady | ⟨-, rfl⟩ | ⟨-, rfl⟩ | ⟨-, packetId, data, rfl⟩
  · exact hsteady.waiting
  · exact (keepsNetworks_handleMulticastLike d.node ..).pendingEncrypted
  · exact (keepsBuffers_handleNetworkCredentials d.node ..).pendingEncrypted
  · exact (keepsNetworks_handleMulticastGatherOk d.node ..).pendingEncrypted

/-! ### One call -/

/-- What is under way when no fragment waits and none has been handled. -/
def WholeSoFar (p : Progress) : Prop := p.node.WaitingWhole ∧ ∀ c ∈ p.calls, isFragment c.data = false

/-- A receiver under which no fragment comes to wait, and which handles none for a packet
that is whole. -/
def KeepsWhole (recv : Receiver) : Prop :=
  ∀ n data fromAddr now r, recv n data fromAddr now = .ok r → n.WaitingWhole →
    r.node.WaitingWhole ∧ (isFragment data = false → ∀ c ∈ r.calls, isFragment c.data = false)

variable {recv : Receiver}

/-- Packets that wait and are whole are received whole. -/
theorem replays_whole (hrecv : KeepsWhole recv) {now : UInt64} {waiting : List PendingEncryptedPacket}
    {p p' : Progress} (h : waiting.foldlM (replayOne recv now) p = .ok p')
    (hwaiting : ∀ w ∈ waiting, isFragment w.data = false) (hp : WholeSoFar p) : WholeSoFar p' := by
  refine foldlM_rel (fun p p' => WholeSoFar p → WholeSoFar p') (fun _ h => h) (fun _ _ _ h h' hp => h' (h hp)) ?_ h hp
  intro w hw q q' hq hsofar
  obtain ⟨r, hr, heq⟩ := bind_eq_ok hq
  cases heq
  obtain ⟨hnode, hcalls⟩ := hrecv _ _ _ _ r hr hsofar.1
  refine ⟨hnode, fun c hc => ?_⟩
  rcases List.mem_append.mp hc with hc | hc
  · exact hsofar.2 c hc
  · exact hcalls (hwaiting w hw) c hc

/-- What an answer to WHOIS releases is whole. -/
theorem resolve_whole (hrecv : KeepsWhole recv) {now : UInt64} {identities : List Identity} {p p' : Progress}
    (h : identities.foldlM (resolveIdentity pr recv now) p = .ok p') (hp : WholeSoFar p) : WholeSoFar p' := by
  refine foldlM_rel (fun p p' => WholeSoFar p → WholeSoFar p') (fun _ h => h) (fun _ _ _ h h' hp => h' (h hp)) ?_ h hp
  intro identity _ q q' hq hwhole
  by_cases hvalid : (q.node.identityAlreadyValidated identity || identity.validateAddress pr) = true
  · rw [resolveIdentity_valid hvalid] at hq
    refine replays_whole hrecv hq (fun w hw => hwhole.1 w (List.mem_filter.mp hw).1) ⟨?_, hwhole.2⟩
    exact fun w hw => hwhole.1 w (List.mem_filter.mp hw).1
  · rw [resolveIdentity_invalid (eq_false_of_ne_true hvalid)] at hq
    cases hq
    exact hwhole

theorem keepsWhole_receiveWith (hrecv : KeepsWhole recv) : KeepsWhole (receiveWith pr recv) := by
  intro n data fromAddr now r h hn
  obtain ⟨p, hp, hr⟩ := bind_eq_ok h
  cases hr
  suffices hsuff : p.node.WaitingWhole ∧ (isFragment data = false → ∀ c ∈ p.calls, isFragment c.data = false) by
    refine ⟨hsuff.1, fun hwhole c hc => ?_⟩
    rcases List.mem_cons.mp hc with rfl | hc
    · exact hwhole
    · exact hsuff.2 hwhole c hc
  rcases receiveBody_cases pr recv hp with ⟨hfrag, -, hnode⟩ | ⟨hfrag, -, packet, r, -, hr, rfl⟩ |
    ⟨n', hadmitted, rfl⟩ | ⟨d, hadmitted, hd⟩
  · refine ⟨?_, fun hwhole => absurd hfrag (by simp [hwhole])⟩
    rcases hnode with hnode | ⟨-, -, hnode⟩
    · rw [hnode]
      exact hn
    · rw [hnode]
      exact hn
  · exact ⟨(hrecv _ _ _ _ r hr hn).1, fun hwhole => absurd hfrag (by simp [hwhole])⟩
  · exact ⟨hn.finished hadmitted, by simp⟩
  · have hnoted : d.node.WaitingWhole := by
      obtain ⟨-, -, -, -, -, hnode, -⟩ := admitPacket_dispatch hadmitted
      rw [hnode]
      exact hn
    rcases dispatch_cases pr recv hd with ⟨-, identities, -, hfold⟩ | ⟨halone, hnil, -⟩
    · obtain ⟨hnode, hcalls⟩ := resolve_whole hrecv hfold ⟨hnoted, by simp⟩
      exact ⟨hnode, fun _ => hcalls⟩
    · exact ⟨hnoted.of_waiting (waiting_handleAlone halone), by simp [hnil]⟩

theorem keepsWhole_receiveFuel (fuel : Nat) : KeepsWhole (receiveFuel pr fuel) := by
  induction fuel with
  | zero =>
    intro n data fromAddr now r h
    cases h
  | succ fuel ih => exact keepsWhole_receiveWith ih

theorem keepsWhole_receivePacket : KeepsWhole (receivePacket pr) := by
  intro n data fromAddr now r h
  exact keepsWhole_receiveFuel _ n data fromAddr now r h

/-! ### The chain -/

variable {n : Node} {data : Bytes} {fromAddr : SocketAddr} {now : UInt64} {r : Received}

/-- A whole packet has no run. -/
theorem fragmentRuns_whole (h : n.receivePacket pr data fromAddr now = .ok r) (hn : n.WaitingWhole)
    (hwhole : isFragment data = false) : r.fragmentRuns = 0 := by
  rw [Received.fragmentRuns, List.countP_eq_zero]
  intro c hc
  simp [(keepsWhole_receivePacket n data fromAddr now r h hn).2 hwhole c hc]

theorem completes_eq_some {b : ReassemblyBuffer} {packet : Bytes} : b.completes data now = some packet ↔
    isFragment data = true ∧ Constants.minFragmentLength < data.length ∧ (b.insertPiece data now).2 = some packet := by
  unfold ReassemblyBuffer.completes
  split
  · rename_i h
    simp [h]
  · rename_i h
    constructor
    · intro hnone
      cases hnone
    · intro hall
      exact absurd ⟨hall.1, hall.2.1⟩ h

/-- A fragment has a run, and those of the packet it completes. -/
theorem fragmentRuns_fragment (h : n.receivePacket pr data fromAddr now = .ok r) (hfrag : isFragment data = true) :
    (n.reassembly.completes data now = none ∧ r.fragmentRuns = 1) ∨
    ∃ packet r', n.reassembly.completes data now = some packet ∧
      receivePacket pr { n with actions := [], reassembly := (n.reassembly.insertPiece data now).1 } packet
        fromAddr now = .ok r' ∧ r.fragmentRuns = r'.fragmentRuns + 1 := by
  rw [receivePacket_eq] at h
  obtain ⟨p, hp, hr⟩ := bind_eq_ok h
  cases hr
  cases hcompletes : n.reassembly.completes data now with
  | none =>
    refine .inl ⟨rfl, ?_⟩
    suffices hnil : p.calls = [] by simp [Received.fragmentRuns, hnil, hfrag]
    rcases receiveBody_cases pr _ hp with ⟨-, hnil, -⟩ | ⟨-, hlen, packet, -, hwhole, -⟩ | ⟨n', -, rfl⟩ |
      ⟨d, hadmitted, -⟩
    · exact hnil
    · rw [completes_eq_some.mpr ⟨hfrag, hlen, hwhole⟩] at hcompletes
      cases hcompletes
    · rfl
    · rw [admitPacket_of_fragment hfrag] at hadmitted
      cases hadmitted
  | some packet =>
    obtain ⟨-, hlen, hwhole⟩ := completes_eq_some.mp hcompletes
    rw [receiveBody_whole hfrag hlen hwhole] at hp
    obtain ⟨r', hr', heq⟩ := bind_eq_ok hp
    cases heq
    refine .inr ⟨packet, r', rfl, hr', ?_⟩
    simp [Received.fragmentRuns, hfrag]

/-- There is more than one run exactly for a fragment that completes a fragment. -/
theorem fragmentRuns_le_one_iff (h : n.receivePacket pr data fromAddr now = .ok r) (hn : n.WaitingWhole) :
    r.fragmentRuns ≤ 1 ↔ ∀ packet, n.reassembly.completes data now = some packet → isFragment packet = false := by
  by_cases hfrag : isFragment data = true
  · rcases fragmentRuns_fragment h hfrag with ⟨hnone, hone⟩ | ⟨packet, r', hsome, hr', hruns⟩
    · simp [hnone, hone]
    · simp only [hsome, Option.some.injEq, forall_eq']
      by_cases hnested : isFragment packet = true
      · -- A fragment inside has a run of its own.
        have hmore : 1 ≤ r'.fragmentRuns := by
          rcases fragmentRuns_fragment hr' hnested with ⟨-, hone⟩ | ⟨_, _, -, -, hruns'⟩ <;> omega
        simp only [hnested, Bool.true_eq_false, iff_false]
        omega
      · have hzero := fragmentRuns_whole hr' hn (eq_false_of_ne_true hnested)
        simp only [eq_false_of_ne_true hnested, iff_true]
        omega
  · have hzero := fragmentRuns_whole h hn (eq_false_of_ne_true hfrag)
    have hnone : n.reassembly.completes data now = none := by
      simp [ReassemblyBuffer.completes, hfrag]
    simp [hzero, hnone]

/-- Every run costs the header of a fragment. -/
theorem fragmentRuns_bounded (bound : Nat) {n : Node} {data : Bytes} {r : Received}
    (h : n.receivePacket pr data fromAddr now = .ok r) (hn : n.WaitingWhole)
    (hbound : n.reassembly.bytes + data.length < bound) :
    Constants.minFragmentLength * r.fragmentRuns ≤ n.reassembly.bytes + data.length := by
  induction bound generalizing n data r with
  | zero => exact absurd hbound (Nat.not_lt_zero _)
  | succ bound ih =>
    by_cases hfrag : isFragment data = true
    · have h16 : Constants.minFragmentLength = 16 := rfl
      have hlong : Constants.minFragmentLength ≤ data.length := by
        unfold isFragment at hfrag
        simp only [decide_eq_true_eq] at hfrag
        exact hfrag.1
      rcases fragmentRuns_fragment h hfrag with ⟨-, hone⟩ | ⟨packet, r', hsome, hr', hruns⟩
      · rw [hone]
        omega
      · obtain ⟨-, hlen, hwhole⟩ := completes_eq_some.mp hsome
        have hbytes := n.reassembly.bytes_insertPiece_le data now
        rw [hwhole, Option.getD_some] at hbytes
        have hnested := ih hr' hn (by show (n.reassembly.insertPiece data now).1.bytes + _ < _; omega)
        have hnested' : Constants.minFragmentLength * r'.fragmentRuns ≤
            (n.reassembly.insertPiece data now).1.bytes + packet.length := hnested
        rw [hruns, h16] at *
        omega
    · have hzero := fragmentRuns_whole h hn (eq_false_of_ne_true hfrag)
      simp [hzero]

/-! ### The calls that are entered -/

/-- While a whole packet is received, no call is entered with a fragment. -/
theorem enters_whole {g g' : Given} (h : Enters pr g g') (hn : g.node.WaitingWhole)
    (hwhole : isFragment g.data = false) : isFragment g'.data = false := by
  induction h with
  | self => exact hwhole
  | fragment hfrag => exact absurd hfrag (by simp [hwhole])
  | @replay n data fromAddr now g d resolved unresolved identity p q earlier later packet hadmitted _ _ hresolved
      _ hwaiting hearlier _ ih =>
    obtain ⟨-, -, -, -, -, hnode, -⟩ := admitPacket_dispatch hadmitted
    have hnoted : d.node.WaitingWhole := by
      rw [hnode]
      exact hn
    have hp : WholeSoFar p := resolve_whole keepsWhole_receivePacket hresolved ⟨hnoted, by simp⟩
    have hmine : ∀ w ∈ earlier ++ packet :: later, isFragment w.data = false := by
      intro w hw
      rw [← hwaiting] at hw
      exact hp.1 w (List.mem_filter.mp hw).1
    have hq := replays_whole keepsWhole_receivePacket hearlier
      (fun w hw => hmine w (List.mem_append_left _ hw)) ⟨fun w hw => hp.1 w (List.mem_filter.mp hw).1, hp.2⟩
    exact ih hq.1 (hmine packet (by simp))

/-- Only the first call is one with a fragment, exactly if it completes no fragment. -/
theorem enters_fragment_iff {g : Given} (hn : g.node.WaitingWhole) :
    (∀ g', Enters pr g g' → isFragment g'.data = true → g' = g) ↔
      ∀ packet, g.node.reassembly.completes g.data g.now = some packet → isFragment packet = false := by
  obtain ⟨n, data, fromAddr, now⟩ := g
  constructor
  · intro honly packet hcompletes
    obtain ⟨hfrag, hlen, hwhole⟩ := completes_eq_some.mp hcompletes
    by_contra hnested
    have heq := honly _ (.fragment hfrag hlen hwhole (.self _)) (eq_true_of_ne_false hnested)
    -- The packet is shorter than what it was taken out of.
    have hbytes := n.reassembly.bytes_insertPiece_le data now
    have hnode : (n.reassembly.insertPiece data now).1.bytes = n.reassembly.bytes :=
      congrArg (fun g : Given => g.node.reassembly.bytes) heq
    have hdata : packet.length = data.length := congrArg (fun g : Given => g.data.length) heq
    have hlong : Constants.minFragmentLength < data.length := hlen
    rw [hwhole, Option.getD_some] at hbytes
    have h16 : Constants.minFragmentLength = 16 := rfl
    omega
  · intro hsingle g' henters hfrag
    cases henters with
    | self => rfl
    | fragment hthis hlen hwhole hnested =>
      have hpacket := hsingle _ (completes_eq_some.mpr ⟨hthis, hlen, hwhole⟩)
      exact absurd hfrag (by simp [enters_whole hnested hn hpacket])
    | replay hadmitted hverb hanswer hresolved hvalid hwaiting hearlier hnested =>
      obtain ⟨hthis, -⟩ := admitPacket_dispatch hadmitted
      have hall := enters_whole (.replay hadmitted hverb hanswer hresolved hvalid hwaiting hearlier hnested) hn hthis
      exact absurd hfrag (by simp [hall])

end Node

/-! ### Runs -/

namespace Service
variable {pr : Primitives} {n n' : Node} {t : List (Entry Node Event Output)}

/-- The steps that receive nothing leave the packets that wait. -/
theorem step_waiting {e : Event} {o : Output} (h : step pr n e = .ok (n', o))
    (hnot : ∀ data fromAddr now, e ≠ .receive data fromAddr now) :
    n'.pendingEncryptedPackets = n.pendingEncryptedPackets := by
  cases e with
  | receive data fromAddr now => exact absurd rfl (hnot data fromAddr now)
  | outboundFrame networkId ethertype payload now =>
    obtain ⟨⟨m, actions⟩, hm, heq⟩ := bind_eq_ok h
    cases heq
    rcases Node.processOutboundFrame_steady pr hm with hsteady | rfl
    · exact hsteady.waiting
    · rfl
  | loadMoon moon =>
    obtain ⟨r, -, heq⟩ := bind_eq_ok h
    cases r <;> · cases heq; rfl
  | tick now =>
    obtain ⟨rfl, -⟩ := Prod.mk.inj (Except.ok.inj h)
    exact (Node.undisturbed_tick pr n now).waiting
  | bootstrap now =>
    obtain ⟨rfl, -⟩ := Prod.mk.inj (Except.ok.inj h)
    exact (Node.steady_bootstrap pr n now).waiting
  | flushConfigRequests now =>
    obtain ⟨rfl, -⟩ := Prod.mk.inj (Except.ok.inj h)
    exact (Node.undisturbed_flushConfigRequests pr n now).waiting
  | sendWhois addresses now =>
    obtain ⟨rfl, -⟩ := Prod.mk.inj (Except.ok.inj h)
    exact (Node.steady_sendWhois pr n addresses now).waiting
  | respondConfig requesterAddress requestPacketId networkId dictData credentials fromAddr =>
    obtain ⟨m, hm, heq⟩ := bind_eq_ok h
    cases heq
    exact (onlySends_respondConfig pr hm).pendingEncrypted
  | joinNetwork membership =>
    obtain ⟨rfl, -⟩ := Prod.mk.inj (Except.ok.inj h)
    unfold Node.joinNetwork
    split <;> rfl
  | _ =>
    obtain ⟨rfl, -⟩ := Prod.mk.inj (Except.ok.inj h)
    rfl

/-- What holds of the packets that wait, and holds of them again after a datagram, holds
of them in every node that is reached. -/
theorem run_waiting {P : List PendingEncryptedPacket → Prop}
    (hreceive : ∀ m data fromAddr now r, Node.receivePacket pr m data fromAddr now = .ok r →
      P m.pendingEncryptedPackets → P r.node.pendingEncryptedPackets)
    {start : Node} (hrun : NodeRun pr start t n) (hstart : P start.pendingEncryptedPackets) :
    P n.pendingEncryptedPackets := by
  refine hrun.invariant (fun m => P m.pendingEncryptedPackets) (fun _ => True) ?_ hstart (fun _ _ => trivial)
  intro e he _ hbefore
  by_cases hreceived : ∃ data fromAddr now, e.event = .receive data fromAddr now
  · obtain ⟨data, fromAddr, now, hevent⟩ := hreceived
    rw [hevent] at he
    obtain ⟨r, hr, hafter, -⟩ := step_receive he
    rw [hafter]
    exact hreceive _ _ _ _ r hr hbefore
  · rw [step_waiting he fun data fromAddr now heq => hreceived ⟨data, fromAddr, now, heq⟩]
    exact hbefore

/-- In no node that is reached does a fragment wait. -/
theorem run_waitingWhole {start : Node} (hrun : NodeRun pr start t n) (hstart : start.WaitingWhole) :
    n.WaitingWhole :=
  run_waiting (P := fun l => ∀ w ∈ l, isFragment w.data = false)
    (fun m data fromAddr now r hr hm => (Node.keepsWhole_receivePacket m data fromAddr now r hr hm).1) hrun hstart

theorem new_waitingWhole {identity : Identity} {planetData : Bytes} {id : UInt64}
    (h : Node.new identity planetData id = .ok n) : n.WaitingWhole := by
  obtain ⟨planet, -, heq⟩ := bind_eq_ok h
  cases heq
  intro w hw
  cases hw

/-- How often a datagram makes `handleFragment` run, in every node that is reached: once
at most exactly if the packet it completes, where it completes one, is not a fragment
itself; else again for that packet, and never more often than there are headers in the
bytes at hand. -/
theorem run_fragment_once_iff (pr : Primitives) (identity : Identity) (planetData : Bytes) (id : UInt64)
    (start n : Node) (t : List (Entry Node Event Output)) (hstart : Node.new identity planetData id = .ok start)
    (hrun : NodeRun pr start t n) (data : Bytes) (fromAddr : SocketAddr) (now : UInt64) :
    ((∀ g, Node.Enters pr ⟨n, data, fromAddr, now⟩ g → isFragment g.data = true → g = ⟨n, data, fromAddr, now⟩) ↔
      ∀ packet, n.reassembly.completes data now = some packet → isFragment packet = false) ∧
    ∀ r, n.receivePacket pr data fromAddr now = .ok r →
      (r.fragmentRuns ≤ 1 ↔
        ∀ packet, n.reassembly.completes data now = some packet → isFragment packet = false) ∧
      Constants.minFragmentLength * r.fragmentRuns ≤ n.reassembly.bytes + data.length := by
  have hn := run_waitingWhole hrun (new_waitingWhole hstart)
  refine ⟨Node.enters_fragment_iff hn, fun r hr => ⟨Node.fragmentRuns_le_one_iff hr hn, ?_⟩⟩
  exact Node.fragmentRuns_bounded _ hr hn (Nat.lt_succ_self _)

/-- A fragment, the only one of its packet. -/
def sampleOnlyFragment (packetId : UInt64) (payload : Bytes) : Bytes :=
  be64 packetId ++ ((Sample.identity 1).address.bytes.toBytes ++ (Constants.fragmentIndicator :: 0x10 :: 0x00 :: payload))

/-- It holds a packet that is whole. -/
theorem run_fragment_once_iff_whole : ∃ r,
    Sample.start.receivePacket Sample.primitives (sampleOnlyFragment 7 [1, 2, 3]) (Sample.endpoint 20) 1000 = .ok r ∧
      r.fragmentRuns ≤ 1 := by
  have hcheck : okWith (Sample.start.receivePacket Sample.primitives (sampleOnlyFragment 7 [1, 2, 3])
      (Sample.endpoint 20) 1000) (fun _ => true) = true := by decide
  obtain ⟨r, hr, -⟩ := exists_of_okWith hcheck
  have hiff := ((run_fragment_once_iff Sample.primitives _ _ _ _ _ [] Sample.new_start .nil
    (sampleOnlyFragment 7 [1, 2, 3]) (Sample.endpoint 20) 1000).2 r hr).1
  have hwhole : (Sample.start.reassembly.completes (sampleOnlyFragment 7 [1, 2, 3]) 1000).any isFragment = false := by
    decide
  refine ⟨r, hr, hiff.mpr ?_⟩
  intro packet hpacket
  simpa [hpacket] using hwhole

/-- A fragment inside a fragment is one datagram that makes it run twice. -/
theorem fragment_nested : ¬ ∀ (pr : Primitives) (identity : Identity) (planetData : Bytes) (id : UInt64)
    (start n : Node) (t : List (Entry Node Event Output)), Node.new identity planetData id = .ok start →
    NodeRun pr start t n → ∀ (data : Bytes) (fromAddr : SocketAddr) (now : UInt64) (r : Received),
    n.receivePacket pr data fromAddr now = .ok r → r.fragmentRuns ≤ 1 := by
  intro hall
  have hcheck : okWith (Sample.start.receivePacket Sample.primitives
      (sampleOnlyFragment 7 (sampleOnlyFragment 8 [1, 2, 3])) (Sample.endpoint 20) 1000)
      (fun r => 1 < r.fragmentRuns) = true := by decide
  obtain ⟨r, hr, htwice⟩ := exists_of_okWith hcheck
  have honce := hall Sample.primitives _ _ _ _ _ [] Sample.new_start .nil _ _ _ r hr
  exact absurd (of_decide_eq_true htwice) (Nat.not_lt.mpr honce)

end Service

end ManyTier
