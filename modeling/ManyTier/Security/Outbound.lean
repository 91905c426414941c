import ManyTier.Delivery.Frames

/-! What leaves a node for a frame of its host.

A frame for a member of the network is sealed for that member and cut into pieces. An ARP
request that is not answered locally goes to the subscribers of the network's ARP group as
it is: without a packet header, without a MAC and in the clear. So every datagram is sealed
for the peer it goes to unless an ARP request is sent out (`outboundFrame_sealed`). -/
namespace ManyTier

namespace Vl2
variable (pr : Primitives)

/-- The datagram is a packet for the peer at the address, from us and under the secret of
its session, or a piece of one. -/
def CarriesSealed (n : Node) (data : Bytes) (address : SocketAddr) : Prop :=
  ∃ dest peer secret packet mtu pieces, n.topology.getPeer dest = some peer ∧
    address ∈ peer.paths.map Path.address ∧ peer.sharedSecret = some secret ∧
    (PacketHeader.read packet).dest = dest ∧ (PacketHeader.read packet).source = n.address ∧
    Salsa.macVerifies pr secret packet = true ∧ fragmentPacket packet mtu = some pieces ∧ data ∈ pieces

def SealedSends (n : Node) (actions : List NodeAction) : Prop :=
  ∀ data address, .sendTo data address ∈ actions → CarriesSealed pr n data address

/-- The addresses of the subscribers of a network's ARP group that can be reached. -/
def arpDestinations (n : Node) (networkId now : UInt64) : List SocketAddr :=
  (n.multicastManager.getReplicationTargets (arpMulticastGroup networkId) n.address 64).filterMap fun target =>
    ((n.topology.getPeer target).bind (·.bestPath now)).map Path.address

/-- Whether no ARP request is sent out: the frame is none, or it is answered locally, or it
does not fit the buffer, or nobody can be reached. -/
def keepsArp (n : Node) (networkId : UInt64) (ethertype : UInt16) (payload : Bytes) (now : UInt64) : Bool :=
  match n.findNetwork networkId with
  | none => true
  | some network =>
    ethertype ≠ Ethernet.ethertypeArp ||
      ((ArpPacket.parse payload).bind fun arp => arp.handleArpRequest network).isSome ||
      arpBufferSize < 23 + payload.length || (arpDestinations n networkId now).isEmpty

variable {pr} {n : Node}

/-- An armored packet names both ends and has a MAC that verifies. -/
theorem sealed_fields {secret : Secret} {packetId : UInt64} {ours dest : ByteVec 5} {verb : Verb} {payload sealed : Bytes}
    (h : Salsa.armorPacket pr secret (encryptedVerbPacket packetId ours dest verb payload) true = .ok sealed) :
    (PacketHeader.read sealed).dest = dest ∧ (PacketHeader.read sealed).source = ours ∧
      Salsa.macVerifies pr secret sealed = true := by
  obtain ⟨sealed', mac, harmor, hlength, htake, hopen⟩ := dearmor_encrypted pr secret packetId dest ours verb.toByte payload
  obtain rfl : sealed' = sealed := Except.ok.inj (harmor.symm.trans h)
  obtain ⟨hdest, hsource, -, -⟩ := Node.read_sealed htake
  have hlong : Constants.minPacketLength ≤ sealed'.length := by
    rw [hlength]
    simp [Constants.minPacketLength]
  exact ⟨hdest, hsource, (Node.isOk_dearmorPacket hlong).mp ⟨_, hopen⟩⟩

/-- The pieces of a packet for a member. -/
theorem sealedSends_sendToMember (network : NetworkMembership) (member : NetworkMember) (ethertype : UInt16)
    (payload : Bytes) (now : UInt64) :
    SealedSends pr n (sendToMember pr n network member ethertype payload n.address now).2 := by
  intro data address hmem
  unfold sendToMember at hmem
  simp only at hmem
  split at hmem
  · simp at hmem
  · rename_i path secret hpath
    obtain ⟨peer, hpeer, hbest⟩ := Option.bind_eq_some_iff.mp hpath
    obtain ⟨best, hbestPath, hsecret⟩ := Option.bind_eq_some_iff.mp hbest
    obtain ⟨shared, hshared, heq⟩ := Option.map_eq_some_iff.mp hsecret
    obtain ⟨rfl, rfl⟩ := Prod.mk.inj heq
    have hmember : best ∈ peer.paths := (Peer.bestPath_mem hbestPath).1
    split at hmem
    · cases hmem
    · rename_i sealed hsealed
      obtain ⟨hdest, hsource, hmac⟩ := sealed_fields hsealed
      simp only [fragmentedSend] at hmem
      split at hmem
      · rename_i pieces hpieces
        obtain ⟨piece, hpiece, heq⟩ := List.mem_map.mp hmem
        obtain ⟨rfl, rfl⟩ := NodeAction.sendTo.inj heq
        exact ⟨member.ztAddress, peer, shared, sealed, _, pieces, hpeer, List.mem_map_of_mem hmember, hshared, hdest,
          hsource, hmac, hpieces, hpiece⟩
      · cases hmem

/-- What goes to one member is sealed, and a note is no datagram. -/
theorem sealedSends_unicastOutbound (network : NetworkMembership) (member : Option NetworkMember) (unknown : Bool)
    (ethertype : UInt16) (payload : Bytes) (now : UInt64) :
    SealedSends pr n (unicastOutbound pr n network member unknown ethertype payload n.address now).2 := by
  unfold unicastOutbound
  split
  · rename_i member
    exact sealedSends_sendToMember network member ethertype payload now
  · intro data address hmem
    split at hmem <;> simp at hmem

/-! ### ARP -/

/-- The frame of an ARP request as it is sent out. -/
def arpFrame (n : Node) (network : NetworkMembership) (payload : Bytes) : ExtFramePayload where
  networkId := network.networkId
  flags := 0
  destMac := Ethernet.broadcastMac
  srcMac := network.ourMac n.address
  ethertype := Ethernet.ethertypeArp
  payload

theorem length_arpFrame (network : NetworkMembership) (payload : Bytes) :
    (arpFrame n network payload).serialize.length = 23 + payload.length := by
  simp [arpFrame, ExtFramePayload.serialize]
  omega

/-- A bare frame is not sealed: the bytes that would tell a packet's source or a piece's
place are those of the broadcast MAC. -/
theorem not_carriesSealed_arpFrame (network : NetworkMembership) (payload : Bytes) (address : SocketAddr)
    (hfirst : byteAt n.address.toBytes 0 ≠ 0xff) :
    ¬ CarriesSealed pr n (arpFrame n network payload).serialize address := by
  set data := (arpFrame n network payload).serialize with hdata
  have hbroadcast : data.drop 9 = Ethernet.broadcastMac.toBytes ++ ((network.ourMac n.address).toBytes ++
      (be16 Ethernet.ethertypeArp ++ payload)) := by
    rw [hdata, ExtFramePayload.serialize]
    exact drop_behind_cons (List.drop_left' (length_be64 _))
  have h13 : data.drop 13 = 0xff :: 0xff :: ((network.ourMac n.address).toBytes ++
      (be16 Ethernet.ethertypeArp ++ payload)) := by
    rw [show 13 = 9 + 4 from rfl, ← List.drop_drop, hbroadcast]
    rfl
  rintro ⟨dest, peer, secret, packet, mtu, pieces, -, -, -, -, hsource, -, hpieces, hmem⟩
  rcases Nat.lt_or_ge mtu packet.length with hlong | hfits
  · obtain ⟨size, total, -, -, -, htotal, -, -, rfl⟩ := fragmentPacket_cases hlong hpieces
    obtain ⟨number, hnumber, hpiece⟩ := List.mem_map.mp hmem
    rw [List.mem_range] at hnumber
    obtain ⟨-, -, -, -, -, hplace, -⟩ := fragmentPiece_fields packet size total number htotal hnumber
    rw [hpiece, FragmentHeader.fragmentNumber,
      show (FragmentHeader.read data).fragmentInfo = 0xff from byteAt_of_drop (drop_behind_cons h13)] at hplace
    have hfifteen : 15 = number % 256 := by simpa using congrArg UInt8.toNat hplace
    simp only [Constants.maxPacketFragments] at htotal
    omega
  · rw [fragmentPacket, if_pos hfits, Option.some.injEq] at hpieces
    rw [← hpieces, List.mem_singleton] at hmem
    have hsame : byteAt data 13 = byteAt n.address.toBytes 0 := by
      rw [hmem, ← hsource]
      exact (byteAt_fieldAt packet 13 0 (by decide)).symm
    exact hfirst (hsame.symm.trans (byteAt_of_drop h13))

/-- Where no ARP request is sent out, nothing leaves but what is answered locally. -/
theorem arpOutbound_cases (network : NetworkMembership) (payload : Bytes) (now : UInt64) :
    arpOutbound n network payload n.address now =
      match (ArpPacket.parse payload).bind fun arp => arp.handleArpRequest network with
      | some reply => .ok [.localReply network.networkId Ethernet.ethertypeArp reply.serialize]
      | none =>
        if arpBufferSize < 23 + payload.length then .error .panic
        else .ok ((arpDestinations n network.networkId now).map
          (NodeAction.sendTo (arpFrame n network payload).serialize)) := by
  unfold arpOutbound
  cases (ArpPacket.parse payload).bind fun arp => arp.handleArpRequest network with
  | some reply => rfl
  | none =>
    simp only
    rw [← length_arpFrame (n := n) network payload]
    refine congrArg (ite _ _) (congrArg Except.ok ?_)
    rw [arpDestinations, List.map_filterMap]
    simp only [Option.map_map]
    rfl

/-- A frame that is no ARP packet is dropped, or sealed for the peer its pieces go to. -/
theorem sealedSends_of_not_arp {n n' : Node} {networkId : UInt64} {ethertype : UInt16} {payload : Bytes}
    {now : UInt64} {actions : List NodeAction} (harp : ethertype ≠ Ethernet.ethertypeArp)
    (h : processOutboundFrame pr n networkId ethertype payload n.address now = .ok (n', actions)) :
    SealedSends pr n actions := by
  have hnil : ∀ m, (.ok (m, []) : Except Fault (Node × List NodeAction)) = .ok (n', actions) →
      SealedSends pr n actions := by
    intro m hm
    obtain ⟨-, rfl⟩ := Prod.mk.inj (Except.ok.inj hm)
    exact fun data address hmem => nomatch hmem
  have hunicast : ∀ network member unknown,
      (.ok (unicastOutbound pr n network member unknown ethertype payload n.address now) :
        Except Fault (Node × List NodeAction)) = .ok (n', actions) → SealedSends pr n actions := by
    intro network member unknown hm
    have hsends : SealedSends pr n (unicastOutbound pr n network member unknown ethertype payload n.address now).2 :=
      sealedSends_unicastOutbound network member unknown ethertype payload now
    rw [Except.ok.inj hm] at hsends
    exact hsends
  cases hnetwork : n.findNetwork networkId with
  | none =>
    simp only [processOutboundFrame, hnetwork] at h
    exact hnil n h
  | some network =>
    obtain rfl : network.networkId = networkId := by simpa using List.find?_some hnetwork
    simp only [processOutboundFrame, hnetwork, harp, if_false] at h
    split at h
    · split at h
      · exact hnil n h
      · exact hunicast network _ _ h
    · split at h
      · split at h
        · exact hnil n h
        · exact hunicast network _ _ h
      · exact hnil n h

/-- Every datagram is sealed for the peer it goes to if no ARP request is sent out; and
only then, for a node whose address does not begin with the byte of fragments. -/
theorem outboundFrame_sealed (pr : Primitives) (n : Node) (networkId : UInt64) (ethertype : UInt16) (payload : Bytes)
    (now : UInt64) :
    (keepsArp n networkId ethertype payload now = true → ∀ n' actions,
      processOutboundFrame pr n networkId ethertype payload n.address now = .ok (n', actions) →
        SealedSends pr n actions) ∧
    (byteAt n.address.toBytes 0 ≠ 0xff → (∀ n' actions,
      processOutboundFrame pr n networkId ethertype payload n.address now = .ok (n', actions) →
        SealedSends pr n actions) → keepsArp n networkId ethertype payload now = true) := by
  cases hnetwork : n.findNetwork networkId with
  | none =>
    refine ⟨fun _ n' actions h => ?_, fun _ _ => by simp [keepsArp, hnetwork]⟩
    simp only [processOutboundFrame, hnetwork] at h
    obtain ⟨-, rfl⟩ := Prod.mk.inj (Except.ok.inj h)
    exact fun data address hmem => nomatch hmem
  | some network =>
    obtain rfl : network.networkId = networkId := by simpa using List.find?_some hnetwork
    by_cases harp : ethertype = Ethernet.ethertypeArp
    · subst harp
      have hout := arpOutbound_cases (n := n) network payload now
      have hsame : processOutboundFrame pr n network.networkId Ethernet.ethertypeArp payload n.address now =
          (arpOutbound n network payload n.address now).map fun actions => (n, actions) := by
        simp only [processOutboundFrame, hnetwork, if_true]
        cases arpOutbound n network payload n.address now <;> rfl
      have hkeeps : keepsArp n network.networkId Ethernet.ethertypeArp payload now =
          (((ArpPacket.parse payload).bind fun arp => arp.handleArpRequest network).isSome ||
            arpBufferSize < 23 + payload.length || (arpDestinations n network.networkId now).isEmpty) := by
        simp [keepsArp, hnetwork]
      rw [hsame, hout, hkeeps]
      cases (ArpPacket.parse payload).bind fun arp => arp.handleArpRequest network with
      | some reply =>
        refine ⟨fun _ n' actions h => ?_, fun _ _ => rfl⟩
        obtain ⟨-, rfl⟩ := Prod.mk.inj (Except.ok.inj h)
        intro data address hmem
        simp at hmem
      | none =>
        by_cases hlarge : arpBufferSize < 23 + payload.length
        · simp only [hlarge, if_true, decide_true, Bool.or_true, Bool.true_or]
          exact ⟨fun _ n' actions h => (nomatch h), fun _ _ => trivial⟩
        · simp only [hlarge, if_false, decide_false, Bool.or_false, Option.isSome_none, Bool.false_or]
          cases hreached : arpDestinations n network.networkId now with
          | nil =>
            refine ⟨fun _ n' actions h => ?_, fun _ _ => rfl⟩
            obtain ⟨-, rfl⟩ := Prod.mk.inj (Except.ok.inj h)
            exact fun data address hmem => nomatch hmem
          | cons address rest =>
            refine ⟨fun h => (nomatch h), fun hfirst hall => ?_⟩
            have hsealed := hall n _ rfl (arpFrame n network payload).serialize address List.mem_cons_self
            exact absurd hsealed (not_carriesSealed_arpFrame network payload address hfirst)
    · exact ⟨fun _ n' actions h => sealedSends_of_not_arp harp h, fun _ _ => by simp [keepsArp, hnetwork, harp]⟩

/-- A node on a network of which root number 2 has joined the ARP group. -/
def sampleSubscribed : Node :=
  { Sample.joined with
    multicastManager := Sample.joined.multicastManager.subscribe (arpMulticastGroup Sample.networkId)
      (Sample.identity 2).address.bytes 0 }

/-- Who has 10.0.0.9? -/
def sampleArpRequest : Bytes :=
  [0x00, 0x01, 0x08, 0x00, 6, 4, 0x00, 0x01, 2, 0, 0, 0, 0, 1, 10, 0, 0, 1, 0, 0, 0, 0, 0, 0, 10, 0, 0, 9]

/-- The request goes to the root as it is. -/
theorem arpRequest_bare : ∃ actions, processOutboundFrame Sample.primitives sampleSubscribed Sample.networkId
      Ethernet.ethertypeArp sampleArpRequest sampleSubscribed.address 1000 = .ok (sampleSubscribed, actions) ∧
    ¬ SealedSends Sample.primitives sampleSubscribed actions := by
  have hout : processOutboundFrame Sample.primitives sampleSubscribed Sample.networkId Ethernet.ethertypeArp
      sampleArpRequest sampleSubscribed.address 1000 = .ok (sampleSubscribed,
        [.sendTo (arpFrame sampleSubscribed (.new Sample.networkId 2800) sampleArpRequest).serialize
          (Sample.endpoint 20)]) := by
    decide
  refine ⟨_, hout, fun h => ?_⟩
  exact not_carriesSealed_arpFrame (.new Sample.networkId 2800) sampleArpRequest (Sample.endpoint 20) (by decide)
    (h _ _ List.mem_cons_self)

/-- A node with a session with root number 3, which is a member of its network. -/
def sampleSender : Node :=
  { Sample.start with
    topology := Sample.start.topology.modifyPeer (SampleFrame.address 3) fun peer =>
      peer.establishSession Sample.primitives (Sample.key 1) 0 1000
    networks := [SampleFrame.membership] }

/-- A frame for the member leaves in two pieces of one sealed packet. -/
theorem outboundFrame_sealed_member : ∃ n' actions,
    processOutboundFrame Sample.primitives sampleSender Sample.networkId Ethernet.ethertypeIpv4 SampleFrame.frame
      sampleSender.address 2000 = .ok (n', actions) ∧ (datagrams actions).length = 2 ∧
    SealedSends Sample.primitives sampleSender actions := by
  have hcheck : okWith (processOutboundFrame Sample.primitives sampleSender Sample.networkId Ethernet.ethertypeIpv4
      SampleFrame.frame sampleSender.address 2000) (fun r => (datagrams r.2).length = 2) = true := by
    decide
  obtain ⟨⟨n', actions⟩, hout, htwo⟩ := exists_of_okWith hcheck
  exact ⟨n', actions, hout, of_decide_eq_true htwo, (outboundFrame_sealed Sample.primitives sampleSender Sample.networkId
    Ethernet.ethertypeIpv4 SampleFrame.frame 2000).1 (by decide) n' actions hout⟩

end Vl2

end ManyTier
