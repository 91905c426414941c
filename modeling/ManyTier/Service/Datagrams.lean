import ManyTier.Delivery.Relay
import ManyTier.Delivery.Sends
import ManyTier.Service.Machine

/-! Where the datagrams of a run come from.

The history of armored packets accounts for what a node sends: whatever a step hands to
the transport is a packet of the history, whole or in pieces, and all packets of the
history are from the node itself; else it is the request of an ARP broadcast, or a packet
for another node that a call received and passes on. Passing on is bounded: a packet that
goes from node to node goes through three of them at most, whatever they hold. -/
namespace ManyTier

/-- A call received the packet that is passed on. -/
def PassedBy (ours : ByteVec 5) (calls : List Call) (next : Bytes) : Prop :=
  ∃ c ∈ calls, (PacketHeader.read c.data).dest ≠ ours ∧ Switch.incrementHops c.data = some next

namespace Node
variable {pr : Primitives}

/-! ### Receiving -/

/-- What a call hands out is of the history, or passed on by a call on record. -/
structure Accounts (pr : Primitives) (n : Node) (r : Received) : Prop where
  identity : r.node.identity = n.identity
  kept : ∀ a ∈ n.armored, a ∈ r.node.armored
  own : ∀ a ∈ r.node.armored, a ∈ n.armored ∨ ∃ encrypt, Drafted n.address (fun _ => False) a.packet encrypt
  queue : r.node.actions = []
  handed : ∀ data address, .sendTo data address ∈ r.actions →
    Recorded pr r.node.armored data ∨ PassedBy n.address r.calls data

/-- What a receiver handed out joins what was queued before it. -/
theorem Accounts.sends {n : Node} {r : Received} (h : Accounts pr n r) (before : List NodeAction) :
    Sends pr (PassedBy n.address r.calls) (fun _ => False)
      { n with actions := before } { r.node with actions := before ++ r.actions } := by
  refine ⟨h.identity, h.kept, h.own, fun data address hmem => ?_⟩
  rcases List.mem_append.mp hmem with hmem | hmem
  · exact .inl hmem
  · exact .inr (h.handed data address hmem)

/-- An answer to WHOIS accounts for what it queues if the calls it makes do. -/
theorem sends_resolve {recv : Receiver}
    (hrecv : ∀ n data fromAddr now r, recv n data fromAddr now = .ok r → Accounts pr n r)
    {identities : List Identity} {now : UInt64} {n : Node} {p : Progress}
    (h : identities.foldlM (resolveIdentity pr recv now) ⟨n, []⟩ = .ok p) :
    Sends pr (PassedBy n.address p.calls) (fun _ => False) n p.node := by
  -- Calls are only added, so what one of those made so far passed on stays accounted for.
  let R (p p' : Progress) : Prop := (∀ c ∈ p.calls, c ∈ p'.calls) ∧
    Sends pr (PassedBy p.node.address p'.calls) (fun _ => False) p.node p'.node
  have hmono : ∀ {ours : ByteVec 5} {calls calls' : List Call}, (∀ c ∈ calls, c ∈ calls') →
      ∀ data, PassedBy ours calls data → PassedBy ours calls' data := by
    rintro ours calls calls' hsub data ⟨c, hc, hpassed⟩
    exact ⟨c, hsub c hc, hpassed⟩
  have hrel : ReplayRel pr recv now R := by
    refine ⟨fun p => ⟨fun _ h => h, .refl _⟩, ?_, ?_, ?_, ?_⟩
    · intro p q r hpq hqr
      refine ⟨fun c hc => hqr.1 c (hpq.1 c hc), (hpq.2.mono (hmono hqr.1)).trans ?_⟩
      rw [← hpq.2.address]
      exact hqr.2
    · intro p identity
      exact ⟨fun _ h => h, sends_learnIdentity pr ..⟩
    · intro p source
      exact ⟨fun _ h => h, .of_quiet rfl rfl fun _ _ h => h⟩
    · intro p packet p' hp'
      obtain ⟨r, hr, heq⟩ := bind_eq_ok hp'
      cases heq
      refine ⟨fun c hc => List.mem_append_left _ hc, ?_⟩
      have hsends := (hrecv _ _ _ _ _ hr).sends p.node.actions
      exact hsends.mono (hmono fun c hc => List.mem_append_right _ hc)
  exact (hrel.resolve h).2

theorem accounts_receiveFuel {fuel : Nat} {n : Node} {data : Bytes} {fromAddr : SocketAddr} {now : UInt64}
    {r : Received} (h : receiveFuel pr fuel n data fromAddr now = .ok r) : Accounts pr n r := by
  induction fuel generalizing n data fromAddr now r with
  | zero => cases h
  | succ fuel ih =>
    obtain ⟨p, hp, hr⟩ := bind_eq_ok h
    cases hr
    set c : Call := ⟨n, data, fromAddr, now, { p.node with actions := [] }, p.node.actions⟩
    -- The call starts with an empty queue and hands out what it queues.
    suffices hsuff : Sends pr (PassedBy n.address (c :: p.calls)) (fun _ => False) { n with actions := [] } p.node by
      refine ⟨hsuff.identity, hsuff.kept, hsuff.own, rfl, fun data address hmem => ?_⟩
      rcases hsuff.queued data address hmem with hmem | hother
      · cases hmem
      · exact hother
    rcases receiveBody_cases pr _ hp with ⟨-, -, hnode⟩ | ⟨-, -, packet, r, -, hr, rfl⟩ |
      ⟨n', hadmitted, rfl⟩ | ⟨d, hadmitted, hd⟩
    · rcases hnode with hnode | ⟨-, -, hnode⟩ <;> rw [hnode]
      · exact .refl _
      · exact .of_quiet rfl rfl fun _ _ h => h
    · have hcall := ih hr
      refine ⟨hcall.identity, hcall.kept, hcall.own, fun data address hmem => ?_⟩
      simp only [hcall.queue, List.nil_append] at hmem
      rcases hcall.handed data address hmem with hrecorded | ⟨c', hc', hpassed⟩
      · exact .inr (.inl hrecorded)
      · exact .inr (.inr ⟨c', List.mem_cons_of_mem _ hc', hpassed⟩)
    · exact (sends_finished pr n hadmitted).mono fun next hnext => ⟨c, List.mem_cons_self, hnext⟩
    · obtain ⟨-, -, -, -, -, hnode, -⟩ := admitPacket_dispatch hadmitted
      have hnoted : Sends pr (PassedBy n.address (c :: p.calls)) (fun _ => False) { n with actions := [] } d.node := by
        rw [hnode]
        exact sends_modifyPeer ..
      rcases dispatch_cases pr _ hd with ⟨-, identities, -, hfold⟩ | ⟨halone, -, -⟩
      · refine hnoted.trans ((sends_resolve (fun _ _ _ _ _ => ih) hfold).mono ?_)
        rintro next ⟨c', hc', hpassed⟩
        rw [hnoted.address] at hpassed
        exact ⟨c', List.mem_cons_of_mem _ hc', hpassed⟩
      · exact hnoted.trans (sends_handleAlone pr halone)

end Node

/-! ### Runs -/

namespace Service
variable {pr : Primitives}

/-- The packet brings a frame the host gave to the node in this step. -/
def FrameGiven (e : Entry Node Event Output) (packet : Bytes) : Prop :=
  ∃ networkId ethertype payload now, e.event = .outboundFrame networkId ethertype payload now ∧
    e.before.FrameOf networkId ethertype payload packet

/-- A packet of an answer to a configuration request: a chunk of the configuration, or the
credentials. -/
def GrantOf (pr : Primitives) (n : Node) (requester : ByteVec 5) (requestPacketId networkId : UInt64) (dictData : Bytes)
    (credentials : NetworkCredentialsPayload) (packet : Bytes) : Prop :=
  (∃ packetId configUpdateId ours, n.identity.secret = some ours ∧
    ∃ i < chunkCount dictData networkConfigChunkBytes, packet = verbPacket pr packetId n.address requester .ok
      (chunkAnswer requestPacketId (chunkConfig pr ours.signing networkId configUpdateId dictData i)) true) ∨
  credentials.serialize.length ≤ credentialsBufferSize ∧
    ∃ packetId, packet = encryptedVerbPacket packetId n.address requester .networkCredentials credentials.serialize

/-- The packet brings what the controller of the node grants in this step. -/
def Granted (pr : Primitives) (e : Entry Node Event Output) (packet : Bytes) : Prop :=
  ∃ requester requestPacketId networkId dictData credentials fromAddr,
    e.event = .respondConfig requester requestPacketId networkId dictData credentials fromAddr ∧
    GrantOf pr e.before requester requestPacketId networkId dictData credentials packet

/-- The packet says what the node was told in this step. -/
def Told (pr : Primitives) (e : Entry Node Event Output) (packet : Bytes) : Prop :=
  FrameGiven e packet ∨ Granted pr e packet

/-- A datagram of a step: of the history, passed on by a call of the step, or an ARP
request of the host. -/
def Explained (pr : Primitives) (e : Entry Node Event Output) (data : Bytes) (address : SocketAddr) : Prop :=
  Recorded pr e.after.armored data ∨ PassedBy e.before.address e.output.calls data ∨
    ∃ networkId payload now, e.event = .outboundFrame networkId Ethernet.ethertypeArp payload now ∧
      e.before.IsArpRequest networkId payload now data address

/-- A step seals packets of the node alone, ordinary ones and what it is told, and what it
queues and hands out is accounted for. -/
structure Emits (pr : Primitives) (e : Entry Node Event Output) : Prop where
  identity : e.after.identity = e.before.identity
  kept : ∀ a ∈ e.before.armored, a ∈ e.after.armored
  own : ∀ a ∈ e.after.armored, a ∈ e.before.armored ∨ ∃ encrypt, Drafted e.before.address (Told pr e) a.packet encrypt
  queued : ∀ data address, .sendTo data address ∈ e.after.actions →
    .sendTo data address ∈ e.before.actions ∨ Recorded pr e.after.armored data
  handed : ∀ data address, .sendTo data address ∈ e.output.actions → Explained pr e data address

namespace Emits
variable {n n' : Node} {event : Event} {o : Output} {given : Bytes → Prop}

/-- What was sent goes to the queue. -/
theorem of_sends (h : Sends pr (fun _ => False) given n n') (htold : ∀ packet, given packet → Told pr ⟨n, event, o, n'⟩ packet)
    (hno : ∀ data address, .sendTo data address ∉ o.actions) : Emits pr ⟨n, event, o, n'⟩ := by
  refine ⟨h.identity, h.kept, ?_, ?_, fun data address hmem => absurd hmem (hno data address)⟩
  · intro a ha
    rcases h.own a ha with ha | ⟨encrypt, hdrafted⟩
    · exact .inl ha
    · exact .inr ⟨encrypt, hdrafted.mono htold⟩
  · intro data address hmem
    rcases h.queued data address hmem with hmem | hrecorded | hno
    · exact .inl hmem
    · exact .inr hrecorded
    · exact hno.elim

/-- What was sent is handed out. -/
theorem of_handsOut (h : Node.HandsOut pr given n n' o.actions)
    (htold : ∀ packet, given packet → Told pr ⟨n, event, o, n'⟩ packet) : Emits pr ⟨n, event, o, n'⟩ := by
  refine ⟨h.identity, h.kept, ?_, ?_, fun data address hmem => .inl (h.handed data address hmem)⟩
  · intro a ha
    rcases h.own a ha with ha | ⟨encrypt, hdrafted⟩
    · exact .inl ha
    · exact .inr ⟨encrypt, hdrafted.mono htold⟩
  · intro data address hmem
    have hqueue : n'.actions = n.actions := h.queue
    exact .inl (hqueue ▸ hmem)

/-- What was sent into an emptied queue is handed out with all of it. -/
theorem of_taken (h : Sends pr (fun _ => False) (fun _ => False) { n with actions := [] } n') :
    Emits pr ⟨n, event, ⟨n'.takeActions.2, []⟩, n'.takeActions.1⟩ := by
  refine ⟨h.identity, h.kept, ?_, ?_, ?_⟩
  · intro a ha
    rcases h.own a ha with ha | ⟨encrypt, hdrafted⟩
    · exact .inl ha
    · exact .inr ⟨encrypt, hdrafted.mono fun _ h => h.elim⟩
  · exact fun _ _ hmem => nomatch hmem
  · intro data address hmem
    rcases h.queued data address hmem with hmem | hrecorded | hno
    · cases hmem
    · exact .inl hrecorded
    · exact hno.elim

end Emits

/-- All packets of the history are from the node, and what it has queued is of the
history. -/
structure OwnHistory (pr : Primitives) (ours : ByteVec 5) (n : Node) : Prop where
  address : n.address = ours
  own : ∀ a ∈ n.armored, a.source = ours
  queued : ∀ data address, .sendTo data address ∈ n.actions → Recorded pr n.armored data

/-- A step keeps the history our own. -/
theorem OwnHistory.step {ours : ByteVec 5} {e : Entry Node Event Output} (hn : OwnHistory pr ours e.before)
    (h : Emits pr e) : OwnHistory pr ours e.after := by
  refine ⟨(congrArg (·.address.bytes) h.identity).trans hn.address, ?_, ?_⟩
  · intro a ha
    rcases h.own a ha with ha | ⟨encrypt, hdrafted⟩
    · exact hn.own a ha
    · exact hdrafted.source.trans hn.address
  · intro data address hmem
    rcases h.queued data address hmem with hmem | hrecorded
    · exact (hn.queued data address hmem).mono h.kept
    · exact hrecorded

/-- The packets of an answer are of the history. -/
theorem handsOut_responseChunks {given : Bytes → Prop} (requesterAddress : ByteVec 5)
    (requestPacketId networkId configUpdateId : UInt64) (dictData : Bytes) (sharedSecret : Secret) (chunks : List Nat)
    (n : Node) (hgiven : ∀ packetId ours, n.identity.secret = some ours → ∀ i ∈ chunks, given (verbPacket pr packetId n.address
      requesterAddress .ok (chunkAnswer requestPacketId (chunkConfig pr ours.signing networkId configUpdateId dictData i)) true)) :
    let built := responseChunks pr requesterAddress requestPacketId networkId configUpdateId dictData sharedSecret chunks n
    Node.HandsOut pr given n built.1 [] ∧ ∀ packets, built.2 = some packets →
      ∀ data ∈ packets, Recorded pr built.1.armored data := by
  induction chunks generalizing n with
  | nil =>
    refine ⟨Node.handsOut_nothing pr n [] fun _ _ => List.not_mem_nil, fun packets hpackets => ?_⟩
    obtain rfl := Option.some.inj hpackets
    exact fun _ h => absurd h List.not_mem_nil
  | cons i rest ih =>
    unfold responseChunks
    split
    · exact ⟨Node.handsOut_nothing pr n [] fun _ _ => List.not_mem_nil, fun _ h => by cases h⟩
    · rename_i ours hours
      simp only
      split
      · exact ⟨⟨rfl, fun _ h => h, fun _ h => .inl h, rfl, fun _ _ h => absurd h List.not_mem_nil⟩, fun _ h => by cases h⟩
      · rename_i sealed harmor
        set packet := verbPacket pr n.allocatePacketId.1 n.allocatePacketId.2.address requesterAddress .ok
          (chunkAnswer requestPacketId (chunkConfig pr ours.signing networkId configUpdateId dictData i)) true with hpacket
        set next : Node := { n.allocatePacketId.2 with armored := n.allocatePacketId.2.armored ++ [⟨sharedSecret, packet⟩] }
        obtain ⟨hrest, hpackets⟩ := ih next fun packetId ours' hours' j hj =>
          hgiven packetId ours' hours' j (List.mem_cons_of_mem _ hj)
        have hdrafted : Drafted n.address given packet true :=
          Node.drafted_flagged (by decide) (.inr (hgiven _ ours hours i List.mem_cons_self))
        have hhead : (⟨sharedSecret, packet⟩ : Armored) ∈ next.armored := List.mem_append_right _ List.mem_cons_self
        refine ⟨⟨hrest.identity, fun a ha => hrest.kept a (List.mem_append_left _ ha), ?_,
          hrest.queue, fun _ _ h => absurd h List.not_mem_nil⟩, ?_⟩
        · intro a ha
          rcases hrest.own a ha with ha | ha
          · rcases List.mem_append.mp ha with ha | ha
            · exact .inl ha
            · rw [List.mem_singleton.mp ha]
              exact .inr ⟨true, hdrafted⟩
          · exact .inr ha
        · intro packets hsome
          obtain ⟨tail, htail, rfl⟩ := Option.map_eq_some_iff.mp hsome
          intro data hdata
          rcases List.mem_cons.mp hdata with rfl | hdata
          · exact ⟨_, hrest.kept _ hhead, data, ⟨true, hdrafted.suite, harmor⟩, .inl rfl⟩
          · exact hpackets tail htail data hdata

theorem sends_sendCredentials {n n' : Node} {requesterAddress : ByteVec 5} {credentials : NetworkCredentialsPayload}
    {secret : Secret} {fromAddr : SocketAddr} {given : Bytes → Prop}
    (hgiven : credentials.serialize.length ≤ credentialsBufferSize → ∀ packetId,
      given (encryptedVerbPacket packetId n.address requesterAddress .networkCredentials credentials.serialize))
    (h : sendCredentials pr n requesterAddress credentials secret fromAddr = .ok n') :
    Sends pr (fun _ => False) given n n' := by
  obtain ⟨payload, hpayload, heq⟩ := bind_eq_ok h
  cases heq
  unfold credentialsPayload at hpayload
  split at hpayload
  · cases hpayload
  · rename_i hfits
    cases hpayload
    exact (Node.sends_allocatePacketId pr n).trans
      (Node.sends_sendArmored pr _ (Node.drafted_encryptedVerbPacket (.inr (hgiven (Nat.not_lt.mp hfits) _))))

theorem sends_respondConfig {n n' : Node} {requesterAddress : ByteVec 5} {requestPacketId networkId : UInt64}
    {dictData : Bytes} {credentials : NetworkCredentialsPayload} {fromAddr : SocketAddr}
    (h : respondConfig pr n requesterAddress requestPacketId networkId dictData credentials fromAddr = .ok n') :
    Sends pr (fun _ => False) (GrantOf pr n requesterAddress requestPacketId networkId dictData credentials) n n' := by
  unfold respondConfig at h
  split at h
  · cases h
    exact .refl n
  · rename_i secret _
    have hbuilt : ∀ m packets, buildNetworkConfigResponsePackets pr n requesterAddress requestPacketId networkId dictData
        secret = (m, packets) →
        Node.HandsOut pr (GrantOf pr n requesterAddress requestPacketId networkId dictData credentials) n m [] ∧
          ∀ sealed, packets = some sealed → ∀ data ∈ sealed, Recorded pr m.armored data := by
      intro m packets hm
      unfold buildNetworkConfigResponsePackets at hm
      split at hm
      · obtain ⟨rfl, rfl⟩ := Prod.mk.inj hm
        exact ⟨Node.handsOut_nothing pr n [] fun _ _ => List.not_mem_nil, fun _ h => nomatch h⟩
      · obtain ⟨hchunks, hsealed⟩ := @handsOut_responseChunks pr
          (GrantOf pr n requesterAddress requestPacketId networkId dictData credentials) requesterAddress requestPacketId
          networkId n.allocatePacketId.1 dictData secret (List.range (chunkCount dictData networkConfigChunkBytes))
          n.allocatePacketId.2 fun packetId ours hours i hi => .inl ⟨packetId, _, ours, hours, i, List.mem_range.mp hi, rfl⟩
        obtain ⟨rfl, rfl⟩ := Prod.mk.inj hm
        exact ⟨⟨hchunks.identity, hchunks.kept, hchunks.own, hchunks.queue, fun _ _ h => nomatch h⟩, hsealed⟩
    split at h
    · rename_i m packet packets hm
      obtain ⟨hchunks, hsealed⟩ := hbuilt m _ hm
      have hours : m.address = n.address := congrArg (·.address.bytes) hchunks.identity
      refine Sends.trans ?_ (sends_sendCredentials (fun hfits packetId => .inr ⟨hfits, packetId, ?_⟩) h)
      swap
      · exact congrArg (encryptedVerbPacket packetId · requesterAddress .networkCredentials credentials.serialize) hours
      refine ⟨hchunks.identity, hchunks.kept, hchunks.own, fun data address hmem => ?_⟩
      rcases List.mem_append.mp hmem with hmem | hmem
      · rw [hchunks.queue] at hmem
        exact .inl hmem
      · obtain ⟨piece, hpiece, heq⟩ := List.mem_map.mp hmem
        obtain ⟨rfl, -⟩ := NodeAction.sendTo.inj heq
        exact .inr (.inl (hsealed _ rfl piece hpiece))
    · rename_i m _ _ hm
      obtain ⟨hchunks, -⟩ := hbuilt m _ hm
      cases h
      exact ⟨hchunks.identity, hchunks.kept, hchunks.own, fun data address hmem => .inl (hchunks.queue ▸ hmem)⟩

/-- Every step accounts for what it seals and what it hands out. -/
theorem step_emits {e : Entry Node Event Output} (h : step pr e.before e.event = .ok (e.after, e.output)) : Emits pr e := by
  obtain ⟨n, event, o, n'⟩ := e
  change step pr n event = .ok (n', o) at h
  have hquiet : ∀ m : Node, m.identity = n.identity → m.armored = n.armored → m.actions = n.actions →
      Emits pr ⟨n, event, ⟨[], []⟩, m⟩ := by
    intro m hid harmored hactions
    have hsends : Sends pr (fun _ => False) (fun _ => False) n m := .of_quiet hid harmored fun _ _ h => hactions ▸ h
    exact .of_sends hsends (fun _ h => h.elim) fun _ _ => List.not_mem_nil
  cases event with
  | receive data fromAddr now =>
    obtain ⟨r, hr, hn', ho⟩ := step_receive h
    obtain rfl : n' = r.node := hn'
    obtain rfl : o = ⟨r.actions, r.calls⟩ := ho
    have hcall := Node.accounts_receiveFuel hr
    refine ⟨hcall.identity, hcall.kept, ?_, ?_, ?_⟩
    · intro a ha
      rcases hcall.own a ha with ha | ⟨encrypt, hdrafted⟩
      · exact .inl ha
      · exact .inr ⟨encrypt, hdrafted.mono fun _ h => h.elim⟩
    · intro next address hmem
      change _ ∈ r.node.actions at hmem
      rw [hcall.queue] at hmem
      cases hmem
    · intro next address hmem
      rcases hcall.handed next address hmem with hrecorded | hpassed
      · exact .inl hrecorded
      · exact .inr (.inl hpassed)
  | tick now =>
    obtain ⟨rfl, rfl⟩ := Prod.mk.inj (Except.ok.inj h)
    exact .of_taken (Node.sends_timer pr n now)
  | bootstrap now =>
    obtain ⟨rfl, rfl⟩ := Prod.mk.inj (Except.ok.inj h)
    exact .of_taken (Node.sends_firstHellos pr _ now (n.rootTargets false))
  | flushConfigRequests now =>
    obtain ⟨rfl, rfl⟩ := Prod.mk.inj (Except.ok.inj h)
    have hhands : Node.HandsOut pr (fun _ => False) n _ _ := Node.handsOut_flushConfigRequests pr n now
    exact .of_handsOut hhands fun _ h => h.elim
  | sendWhois addresses now =>
    obtain ⟨rfl, rfl⟩ := Prod.mk.inj (Except.ok.inj h)
    have hhands : Node.HandsOut pr (fun _ => False) n _ _ := Node.handsOut_sendWhois pr n addresses now
    exact .of_handsOut hhands fun _ h => h.elim
  | outboundFrame networkId ethertype payload now =>
    obtain ⟨⟨m, actions⟩, hframe, heq⟩ := bind_eq_ok h
    cases heq
    rcases Node.handsOut_processOutboundFrame pr hframe with hhands | ⟨rfl, rfl, harp⟩
    · exact .of_handsOut hhands fun packet hpacket => .inl ⟨networkId, ethertype, payload, now, rfl, hpacket⟩
    · refine ⟨rfl, fun _ h => h, fun _ h => .inl h, fun _ _ h => .inl h, fun data address hmem => ?_⟩
      exact .inr (.inr ⟨networkId, payload, now, rfl, harp data address hmem⟩)
  | respondConfig requesterAddress requestPacketId networkId dictData credentials fromAddr =>
    obtain ⟨m, hm, heq⟩ := bind_eq_ok h
    cases heq
    exact .of_sends (sends_respondConfig hm) (fun packet hpacket => .inr ⟨_, _, _, _, _, _, rfl, hpacket⟩)
      fun _ _ => List.not_mem_nil
  | loadMoon moon =>
    obtain ⟨r, -, heq⟩ := bind_eq_ok h
    cases r with
    | error e =>
      cases heq
      exact hquiet n rfl rfl rfl
    | ok topology =>
      cases heq
      exact hquiet _ rfl rfl rfl
  | joinNetwork membership =>
    obtain ⟨rfl, rfl⟩ := Prod.mk.inj (Except.ok.inj h)
    refine hquiet _ ?_ ?_ ?_ <;> · unfold Node.joinNetwork; split <;> rfl
  | _ =>
    obtain ⟨rfl, rfl⟩ := Prod.mk.inj (Except.ok.inj h)
    exact hquiet _ rfl rfl rfl

/-- In every run every datagram is explained, and the history has packets from the node
alone. -/
theorem run_explained (pr : Primitives) (identity : Identity) (planetData : Bytes) (id : UInt64) {start n : Node}
    {t : List (Entry Node Event Output)} (hnew : Node.new identity planetData id = .ok start)
    (hrun : NodeRun pr start t n) :
    ∀ e ∈ t, (∀ a ∈ e.after.armored, a.source = identity.address.bytes) ∧
      (∀ data address, .sendTo data address ∈ e.after.actions → Recorded pr e.after.armored data) ∧
      ∀ data address, .sendTo data address ∈ e.output.actions → Explained pr e data address := by
  have hstart : OwnHistory pr identity.address.bytes start := by
    obtain ⟨planet, -, heq⟩ := bind_eq_ok hnew
    cases heq
    exact ⟨rfl, fun _ h => (nomatch h), fun _ _ h => (nomatch h)⟩
  refine hrun.forall_entries (OwnHistory pr identity.address.bytes) (fun _ => True) _ ?_ hstart fun _ _ => trivial
  intro e he _ hbefore
  have hemits := step_emits he
  have hafter := hbefore.step hemits
  exact ⟨hafter, hafter.own, hafter.queued, hemits.handed⟩

open SampleFrame in
/-- Number 1 joins, gets the answer of number 3 and sends it a frame, in two pieces. -/
theorem run_explained_frame : ∃ (e : Entry Node Event Output) (t : List (Entry Node Event Output)) (n : Node)
    (first second : Bytes), NodeRun Sample.primitives Sample.start (t ++ [e]) n ∧
      e.event = .outboundFrame Sample.networkId Ethernet.ethertypeIpv4 frame 2000 ∧
      Vl2.datagrams e.output.actions = [first, second] ∧
      (∀ a ∈ e.after.armored, a.source = (Sample.identity 1).address.bytes) ∧
      ∀ data address, .sendTo data address ∈ e.output.actions → Explained Sample.primitives e data address := by
  have hcheck : okWith (step Sample.primitives (Sample.start.joinNetwork membership) (.receive answer (Sample.endpoint 30) 1000))
      (fun r => okWith (step Sample.primitives r.1 (.outboundFrame Sample.networkId Ethernet.ethertypeIpv4 frame 2000))
        fun r' => (Vl2.datagrams r'.2.actions).length = 2) = true := by
    decide +kernel
  obtain ⟨⟨a, o₁⟩, hanswered, hcheck⟩ := exists_of_okWith hcheck
  obtain ⟨⟨n, o₂⟩, hsent, htwo⟩ := exists_of_okWith hcheck
  obtain ⟨first, second, hpieces⟩ := List.length_eq_two.mp (of_decide_eq_true htwo)
  have hjoined : step Sample.primitives Sample.start (.joinNetwork membership) =
      .ok (Sample.start.joinNetwork membership, ⟨[], []⟩) := rfl
  have hrun := ((Run.one hjoined).snoc hanswered).snoc hsent
  obtain ⟨hown, -, hexplained⟩ := run_explained Sample.primitives (Sample.identity 1) Sample.planet.serialize 1 Sample.new_start
    hrun _ (List.mem_append_right _ List.mem_cons_self)
  exact ⟨_, _, n, first, second, hrun, rfl, hpieces, hown, hexplained⟩

end Service

/-! ### From node to node -/

/-- A packet goes from node to node: each receives it, is not the one it is for, and what
it sends first is received by the next. -/
inductive PassedOn (pr : Primitives) (data : Bytes) : List Node → Bytes → Prop where
  | start : PassedOn pr data [] data
  | through {nodes : List Node} {arrived next : Bytes} {n : Node} {fromAddr address : SocketAddr} {now : UInt64}
      {r : Received} {rest : List NodeAction} : PassedOn pr data nodes arrived → isFragment arrived = false →
      (PacketHeader.read arrived).dest ≠ n.address → n.receivePacket pr arrived fromAddr now = .ok r →
      r.actions = .sendTo next address :: rest → PassedOn pr data (nodes ++ [n]) next

/-- What a node hands out for a packet that is for another: nothing, or the packet with
one hop more and then what introduces the two ends to each other. -/
theorem actions_passed {pr : Primitives} {n : Node} {data : Bytes} {fromAddr : SocketAddr} {now : UInt64} {r : Received}
    (hwhole : isFragment data = false) (hdest : (PacketHeader.read data).dest ≠ n.address)
    (h : n.receivePacket pr data fromAddr now = .ok r) :
    r.actions = [] ∨ ∃ next address rest, Switch.incrementHops data = some next ∧ r.actions = .sendTo next address :: rest := by
  obtain ⟨p, hp, hr⟩ := bind_eq_ok h
  cases hr
  have hadmitted : n.admitPacket pr data fromAddr now =
      .finished (if data.length < Constants.minPacketLength then { n with actions := [] }
        else { n with actions := [] }.handleRelay pr data now) := by
    unfold Node.admitPacket
    simp only
    rw [if_neg (by simp [hwhole])]
    split
    · rfl
    · exact if_pos hdest
  unfold Node.receiveBody at hp
  rw [hadmitted] at hp
  obtain rfl := Except.ok.inj hp
  show (ite _ _ _ : Node).actions = [] ∨ _
  split
  · exact .inl rfl
  · unfold Node.handleRelay
    split
    · exact .inl rfl
    · rename_i next hnext
      have hintroduced : ∀ (m : Node) (address : SocketAddr) (source dest : ByteVec 5),
          m.actions = [.sendTo next address] →
            ∃ rest, (m.maybeSendRendezvous pr source dest now).actions = .sendTo next address :: rest := by
        intro m address source dest hm
        have hsend : ∀ (m : Node) secret packet encrypt target, ∃ more,
            (m.sendArmored pr secret packet encrypt target).actions = m.actions ++ more := by
          intro m secret packet encrypt target
          unfold Node.sendArmored
          split
          · exact ⟨_, rfl⟩
          · exact ⟨[], (List.append_nil _).symm⟩
        unfold Node.maybeSendRendezvous
        split
        · simp only
          obtain ⟨more', hsecond⟩ := hsend _ _ _ _ _
          rw [hsecond]
          obtain ⟨more, hfirst⟩ := hsend m _ _ _ _
          rw [hfirst, hm]
          exact ⟨_, rfl⟩
        · exact ⟨[], hm⟩
      simp only
      split
      · obtain ⟨rest, hrest⟩ := hintroduced (({ n with actions := [] } : Node).pushAction (.sendTo next _)) _ _ _ rfl
        exact .inr ⟨next, _, rest, hnext, hrest⟩
      · exact .inr ⟨next, _, [], hnext, rfl⟩
      · exact .inl rfl

/-- Whatever the nodes on the way hold, a packet goes through three of them at most, and
through fewer if it came with hops: what arrives differs in the hop count alone, opens for
whoever could open it, in either cipher, and with three hops it is not sent on. -/
theorem passedOn_bounded (pr : Primitives) {data arrived : Bytes} {nodes : List Node} (h : PassedOn pr data nodes arrived) :
    SameButHops data arrived ∧ (PacketHeader.read arrived).hops.toNat = (PacketHeader.read data).hops.toNat + nodes.length ∧
      (nodes ≠ [] → (PacketHeader.read data).hops.toNat + nodes.length ≤ Constants.relayMaxHops.toNat) ∧
      (∀ secret opened, Salsa.dearmorPacket pr secret data = .ok opened →
        ∃ opened', Salsa.dearmorPacket pr secret arrived = .ok opened' ∧ SameButHops opened opened') ∧
      (∀ k0 k1 opened verified, AesGmacSiv.dearmorPacket pr k0 k1 data (Node.buildAesAad data) = .ok (opened, verified) →
        ∃ opened', AesGmacSiv.dearmorPacket pr k0 k1 arrived (Node.buildAesAad arrived) = .ok (opened', verified) ∧
          SameButHops opened opened') ∧
      (Constants.relayMaxHops.toNat ≤ (PacketHeader.read data).hops.toNat + nodes.length → isFragment arrived = false →
        ∀ (n : Node) fromAddr now r, (PacketHeader.read arrived).dest ≠ n.address →
          n.receivePacket pr arrived fromAddr now = .ok r → r.actions = []) := by
  have hway : SameButHops data arrived ∧
      (PacketHeader.read arrived).hops.toNat = (PacketHeader.read data).hops.toNat + nodes.length ∧
      (nodes ≠ [] → (PacketHeader.read arrived).hops.toNat ≤ Constants.relayMaxHops.toNat) := by
    induction h with
    | start => exact ⟨.refl data, rfl, fun h => absurd rfl h⟩
    | @through nodes arrived next n fromAddr address now r rest _ hwhole hdest hr hactions ih =>
      rcases actions_passed hwhole hdest hr with hnone | ⟨next', address', rest', hnext, hactions'⟩
      · rw [hnone] at hactions
        cases hactions
      · rw [hactions'] at hactions
        obtain ⟨rfl, -⟩ := NodeAction.sendTo.inj (List.cons.inj hactions).1
        obtain ⟨hsame, hcount, hmax⟩ := Switch.incrementHops_some hnext
        have hone : (PacketHeader.read next').hops.toNat = (PacketHeader.read arrived).hops.toNat + 1 := hcount
        refine ⟨ih.1.trans hsame, ?_, fun _ => hmax⟩
        rw [hone, ih.2.1, List.length_append, List.length_singleton, Nat.add_assoc]
  obtain ⟨hsame, hcount, hmax⟩ := hway
  refine ⟨hsame, hcount, fun hne => hcount ▸ hmax hne, fun secret opened => Salsa.dearmorPacket_sameButHops pr secret hsame,
    fun k0 k1 opened verified => AesGmacSiv.dearmorPacket_sameButHops pr k0 k1 hsame, ?_⟩
  intro hfull hwhole n fromAddr now r hdest hr
  rcases actions_passed hwhole hdest hr with hnone | ⟨next, address, rest, hnext, -⟩
  · exact hnone
  · obtain ⟨-, hone, hlast⟩ := Switch.incrementHops_some hnext
    have harrived : (byteAt arrived 18 &&& 0x07).toNat = (PacketHeader.read data).hops.toNat + nodes.length := hcount
    omega

/-- A packet from the third party to the second that has gone through so many nodes. -/
def samplePassing (hops : UInt8) : Bytes :=
  plainHeader 7 (Sample.identity 3).address.bytes (Sample.identity 2).address.bytes (encryptedFlags ||| hops) 0x08 ++ [1, 2, 3]

/-- What a new node sends for it: the packet, with one hop more, to the second party. -/
def samplePasses (hops : UInt8) : Bool :=
  okWith (Sample.start.receivePacket Sample.primitives (samplePassing hops) (Sample.endpoint 20) 1000) fun r =>
    r.actions = [.sendTo (samplePassing (hops + 1)) (Sample.endpoint 30)]

/-- Two nodes that know nothing of each other pass the packet on. -/
theorem passedOn_bounded_twice : ∃ arrived, PassedOn Sample.primitives (samplePassing 0) [Sample.start, Sample.start] arrived ∧
    SameButHops (samplePassing 0) arrived ∧ (PacketHeader.read arrived).hops.toNat = 2 := by
  have hpasses : samplePasses 0 = true ∧ samplePasses 1 = true := by decide +kernel
  obtain ⟨first, hfirst, hsent⟩ := exists_of_okWith hpasses.1
  obtain ⟨second, hsecond, hsent'⟩ := exists_of_okWith hpasses.2
  have hway : PassedOn Sample.primitives (samplePassing 0) ([] ++ [Sample.start] ++ [Sample.start]) (samplePassing 2) :=
    .through (.through .start rfl (by decide) hfirst (of_decide_eq_true hsent)) rfl (by decide) hsecond
      (of_decide_eq_true hsent')
  obtain ⟨hsame, hcount, -⟩ := passedOn_bounded Sample.primitives hway
  exact ⟨_, hway, hsame, hcount⟩

end ManyTier
