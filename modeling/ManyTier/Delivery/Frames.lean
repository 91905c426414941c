import ManyTier.Security.FrameTrust
import ManyTier.Service.Machine

/-! A frame from one member of a network to another.

The sender looks the member up, seals the frame for it and cuts the packet to the MTU.
The receiver collects the pieces in whatever order they come, opens the packet, and hands
the frame out once (`frame_delivered`). The MACs are derived from the addresses at both
ends: every directory a node has lists members under their own (`run_ownMacs`). -/
namespace ManyTier

/-! ### MACs of a directory -/

/-- Every member is listed under the MAC that its address has on the network. -/
def NetworkMembership.OwnMacs (net : NetworkMembership) : Prop :=
  ∀ m ∈ net.members, m.mac = Ethernet.deriveMac m.ztAddress net.networkId

theorem ownMacs_config {net net' : NetworkMembership} (heq : net.config = net'.config) (h : net.OwnMacs) :
    net'.OwnMacs := by
  have hid : net.config.networkId = net'.config.networkId := congrArg NetworkMembership.networkId heq
  have hmembers : net.config.members = net'.config.members := congrArg NetworkMembership.members heq
  show ∀ m ∈ net'.config.members, m.mac = Ethernet.deriveMac m.ztAddress net'.config.networkId
  rw [← hid, ← hmembers]
  exact h

theorem mac_peerDirectoryEntries (networkId : UInt64) (ourAddress : ByteVec 5) (count : Nat) (data : Bytes)
    {directory : PeerDirectory} (h : peerDirectoryEntries networkId ourAddress count data = some directory) :
    ∀ m ∈ directory.members, m.mac = Ethernet.deriveMac m.ztAddress networkId := by
  induction count generalizing data directory with
  | zero =>
    obtain rfl := Option.some.inj h
    intro m hm
    cases hm
  | succ count ih =>
    unfold peerDirectoryEntries at h
    split at h
    · cases h
    · obtain ⟨ipv4, -, h⟩ := Option.bind_eq_some_iff.mp h
      obtain ⟨ipv6, -, h⟩ := Option.bind_eq_some_iff.mp h
      obtain ⟨com, -, h⟩ := Option.bind_eq_some_iff.mp h
      obtain ⟨rest, hrest, h⟩ := Option.bind_eq_some_iff.mp h
      obtain rfl := Option.some.inj h
      exact List.forall_mem_cons.mpr ⟨rfl, ih _ hrest⟩

/-- A configuration lists members under their own MACs. -/
theorem NetworkMembership.OwnMacs.applyDictionary {net : NetworkMembership} (h : net.OwnMacs)
    (ourAddress : ByteVec 5) (dictData : Bytes) : (net.applyDictionary ourAddress dictData).OwnMacs := by
  obtain ⟨hid, hmembers, -⟩ := net.applySettings_keeps dictData
  rw [applyDictionary_eq]
  split
  · rename_i directory hdirectory
    obtain ⟨dict, -, hdata⟩ := Option.bind_eq_some_iff.mp hdirectory
    obtain ⟨data, -, hentries⟩ := Option.bind_eq_some_iff.mp hdata
    split at hentries
    · cases hentries
    · intro m hm
      rw [mac_peerDirectoryEntries _ _ _ _ hentries m hm]
      exact congrArg _ hid.symm
  · intro m hm
    rw [hmembers] at hm
    rw [h m hm, hid]

namespace Service
variable {pr : Primitives}

theorem ownMacs_invariant : Node.CallInvariant pr (fun _ => True) (Node.Each NetworkMembership.OwnMacs) := by
  refine .of_configs ?_ ?_ ?_
  · exact fun n n' hk h => h.keepsConfigs (fun _ _ => ownMacs_config) hk
  · intro c d nc _ _ _ h
    exact h.applyReceived (fun _ _ => ownMacs_config) nc fun whole net _ _ _ hnet => hnet.applyDictionary _ _
  · intro c d _ _ _ h
    unfold Node.handleNetworkCredentials
    split
    · exact h
    · exact h.modifyNetwork _ fun _ _ hnet => hnet

/-- What a node joins lists members under their own MACs. -/
def JoinsOwnMacs (e : Entry Node Event Output) : Prop :=
  ∀ membership, e.event = .joinNetwork membership → membership.OwnMacs

/-- In every run that joins such memberships, every directory lists members under their
own MACs. -/
theorem run_ownMacs {identity : Identity} {planetData : Bytes} {initialPacketId : UInt64} {start n : Node}
    {t : List (Entry Node Event Output)} (hstart : Node.new identity planetData initialPacketId = .ok start)
    (hrun : NodeRun pr start t n) (hjoins : ∀ e ∈ t, JoinsOwnMacs e) : n.Each NetworkMembership.OwnMacs := by
  have hempty : start.Each NetworkMembership.OwnMacs := by
    obtain ⟨planet, -, heq⟩ := bind_eq_ok hstart
    cases heq
    intro net hnet
    cases hnet
  refine hrun.invariant _ JoinsOwnMacs ?_ hempty hjoins
  intro e hstep hjoin h
  refine (step_invariant ownMacs_invariant JoinsOwnMacs ?_ hstep hjoin (fun _ _ => trivial) h).1
  exact fun e hstep hjoin hnot h => step_each (fun _ _ => ownMacs_config) hstep hnot hjoin (fun _ _ _ _ _ hnet => hnet) h

end Service

/-! ### Receiving a packet -/

namespace Node
variable {pr : Primitives} {b : Node} {secret : Secret} {packetId : UInt64} {source : ByteVec 5} {payload sealed : Bytes}

/-- A call hands out what its body collected. -/
theorem receiveWith_of_body {recv : Receiver} {data : Bytes} {fromAddr : SocketAddr} {now : UInt64} {p : Progress}
    (h : receiveBody pr recv b data fromAddr now = .ok p) :
    ∃ r, receiveWith pr recv b data fromAddr now = .ok r ∧ r.node = { p.node with actions := [] } ∧
      r.actions = p.node.actions := by
  rw [receiveWith, h, ok_bind]
  exact ⟨_, rfl, rfl, rfl⟩

/-- A frame of a member whose certificate is good is handed out, and nothing else. -/
theorem receiveWith_extFrame (recv : Receiver) {ext : ExtFramePayload}
    (hsealed : Salsa.armorPacket pr secret (encryptedVerbPacket packetId source b.address .extFrame ext.serialize)
      true = .ok sealed)
    (hsecret : b.sharedSecretForPeer pr source = some secret) (hsource : byteAt source.toBytes 0 ≠ 0xff)
    (hcom : Vl2.hasPeerCom pr b ext.networkId source = true) (fromAddr : SocketAddr) (now : UInt64) :
    ∃ r, receiveWith pr recv b sealed fromAddr now = .ok r ∧ r.node.actions = [] ∧
      r.actions = [.frameReceived ext.networkId ext.srcMac ext.destMac ext.ethertype ext.payload] := by
  obtain ⟨d, hadmitted, hverb, hnode, hsrc, hpayload⟩ := admitPacket_sealed hsealed hsecret hsource fromAddr now
  have hgood : Vl2.hasPeerCom pr d.node ext.networkId source = true := by
    rw [hnode, hasPeerCom_noteSource]
    exact hcom
  have hjoined : (d.node.findNetwork ext.networkId).isSome = true := by
    unfold Vl2.hasPeerCom at hgood
    split at hgood
    · cases hgood
    · rename_i network hnetwork
      rw [hnetwork]
      rfl
  have hframe : handleVerb pr .extFrame d fromAddr now =
      .ok (d.node.pushAction (.frameReceived ext.networkId ext.srcMac ext.destMac ext.ethertype ext.payload)) := by
    simp only [handleVerb, Vl2.handleExtFrame, hpayload, ExtFramePayload.parse_serialize, Vl2.deliverFrame, hsrc,
      hgood, hjoined, Bool.and_self, if_true]
  have hbody : receiveBody pr recv b sealed fromAddr now =
      .ok ⟨d.node.pushAction (.frameReceived ext.networkId ext.srcMac ext.destMac ext.ethertype ext.payload), []⟩ := by
    unfold receiveBody dispatch
    rw [hadmitted]
    simp only [hverb, hframe, ok_bind]
    rfl
  have hempty : d.node.actions = [] := by
    rw [hnode]
    rfl
  obtain ⟨r, hr, hafter, hactions⟩ := receiveWith_of_body hbody
  refine ⟨r, hr, by rw [hafter], ?_⟩
  rw [hactions, pushAction, hempty]
  rfl

/-! ### Receiving pieces -/

section
variable {data : Bytes} {fromAddr : SocketAddr} {now : UInt64} (hfragment : isFragment data = true)
  (hlen : Constants.minFragmentLength < data.length)
include hfragment hlen

omit hlen in
theorem receiveBody_fragment (recv : Receiver) : receiveBody pr recv b data fromAddr now =
    handleFragment recv { b with actions := [] } data fromAddr now := by
  unfold receiveBody admitPacket
  simp only [hfragment, if_true]

/-- A piece that leaves others missing is kept, and nothing is handed out. -/
theorem receivePacket_kept (pr : Primitives) (fromAddr : SocketAddr)
    (hnone : (b.reassembly.insertPiece data now).2 = none) :
    ∃ r, b.receivePacket pr data fromAddr now = .ok r ∧ r.actions = [] ∧
      r.node = { b with actions := [], reassembly := (b.reassembly.insertPiece data now).1 } := by
  have hbody : receiveBody pr (receiveFuel pr (b.heldBytes + data.length)) b data fromAddr now =
      .ok ⟨{ b with actions := [], reassembly := (b.reassembly.insertPiece data now).1 }, []⟩ := by
    rw [receiveBody_fragment hfragment, handleFragment, if_neg (Nat.not_le.mpr hlen)]
    simp only [hnone]
  obtain ⟨r, hr, hafter, hactions⟩ := receiveWith_of_body hbody
  exact ⟨r, hr, hactions, hafter⟩

/-- The piece that completes a packet hands out what the packet does. -/
theorem receivePacket_whole {packet : Bytes} {actions : List NodeAction}
    (hsome : (b.reassembly.insertPiece data now).2 = some packet)
    (hwhole : ∀ recv, ∃ r, receiveWith pr recv
      { b with actions := [], reassembly := (b.reassembly.insertPiece data now).1 } packet fromAddr now = .ok r ∧
      r.node.actions = [] ∧ r.actions = actions) :
    ∃ r, b.receivePacket pr data fromAddr now = .ok r ∧ r.actions = actions := by
  obtain ⟨fuel, hfuel⟩ : ∃ fuel, b.heldBytes + data.length = fuel + 1 :=
    Nat.exists_eq_add_one.mpr (by omega)
  obtain ⟨r, hr, hempty, hactions⟩ := hwhole (receiveFuel pr fuel)
  have hbody : receiveBody pr (receiveFuel pr (fuel + 1)) b data fromAddr now =
      .ok ⟨{ r.node with actions := r.node.actions ++ r.actions }, r.calls⟩ := by
    rw [receiveBody_fragment hfragment, handleFragment, if_neg (Nat.not_le.mpr hlen)]
    simp only [hsome]
    rw [show receiveFuel pr (fuel + 1) _ packet fromAddr now = .ok r from hr, ok_bind]
    rfl
  obtain ⟨r', hr', -, hactions'⟩ := receiveWith_of_body hbody
  refine ⟨r', ?_, ?_⟩
  · show receiveWith pr (receiveFuel pr (b.heldBytes + data.length)) b data fromAddr now = _
    rw [hfuel, hr']
  · rw [hactions', hempty, hactions]
    rfl

end

end Node

/-! ### Arrivals -/

/-- A datagram as it arrives. -/
structure Arrival where
  data : Bytes
  fromAddr : SocketAddr
  now : UInt64

/-- Datagrams received one after the other, and all that is handed out. -/
def Node.receiveAll (pr : Primitives) (n : Node) : List Arrival → Except Fault (Node × List NodeAction)
  | [] => .ok (n, [])
  | x :: rest => do
    let r ← n.receivePacket pr x.data x.fromAddr x.now
    let (n', actions) ← r.node.receiveAll pr rest
    return (n', r.actions ++ actions)

section
variable {pr : Primitives} {b : Node} {packet : Bytes} {size total : Nat} {frames : List NodeAction}

theorem fragmentPiece_long (total : Nat) (hsize : 0 < size) {n : Nat} (hn : n * size < packet.length) :
    Constants.minFragmentLength < (fragmentPiece packet size total n).length := by
  simp [fragmentPiece, Constants.minFragmentLength]
  omega

/-- The pieces of a packet, each of them once and in any order, hand out what the packet
does. -/
theorem receiveAll_pieces (ht : total ≤ Constants.maxPacketFragments) (hsize : 0 < size)
    (hcover : packet.length ≤ total * size) (hbelow : ∀ n < total, n * size < packet.length)
    (hwhole : ∀ buffer recv fromAddr now, ∃ r, Node.receiveWith pr recv
      { b with actions := [], reassembly := buffer } packet fromAddr now = .ok r ∧
      r.node.actions = [] ∧ r.actions = frames)
    (number : Arrival → Nat) (arrivals : List Arrival) (hne : arrivals ≠ [])
    (hpieces : ∀ x ∈ arrivals, x.data = fragmentPiece packet size total (number x))
    (hnodup : (arrivals.map number).Nodup) (held : Finset Nat)
    (hmissing : ∀ i, i ∈ arrivals.map number ↔ i < total ∧ i ∉ held) (actions : List NodeAction)
    (buffer : ReassemblyBuffer)
    (hb : BufferHolds (fun n => slice packet (n * size) size) total (PacketHeader.read packet).packetId held buffer) :
    ∃ b', Node.receiveAll pr { b with actions, reassembly := buffer } arrivals = .ok (b', frames) := by
  induction arrivals generalizing held actions buffer with
  | nil => exact absurd rfl hne
  | cons x rest ih =>
    obtain ⟨hdata, hrest⟩ := List.forall_mem_cons.mp hpieces
    obtain ⟨hnew, hnodup'⟩ := List.nodup_cons.mp hnodup
    obtain ⟨hnum, hnotHeld⟩ := (hmissing (number x)).mp List.mem_cons_self
    obtain ⟨-, hfragment, -⟩ := fragmentPiece_fields packet size total (number x) ht hnum
    have hlong := fragmentPiece_long total hsize (hbelow _ hnum)
    have hsome : ¬ Finset.range total ⊆ held := fun h => hnotHeld (h (Finset.mem_range.mpr hnum))
    obtain ⟨hholds, hout⟩ := deliver_step ht hcover held buffer (.piece (number x) x.now) hsome hnum
      (buffer.makeRoom_self _) hb
    have hpiece : ((List.range total).map (fragmentPiece packet size total)).getD (number x) [] = x.data := by
      simp [hnum, hdata]
    simp only [ReassemblyBuffer.deliver, hpiece, Delivery.brings] at hholds hout
    have hout := hout (Finset.singleton_ne_empty _)
    rw [← hdata] at hfragment hlong
    cases rest with
    | nil =>
      have hall : Finset.range total ⊆ held ∪ {number x} := by
        intro i hi
        by_cases hheld : i ∈ held
        · exact Finset.mem_union_left _ hheld
        · have hi' := (hmissing i).mpr ⟨Finset.mem_range.mp hi, hheld⟩
          rw [List.map_singleton, List.mem_singleton] at hi'
          exact Finset.mem_union_right _ (Finset.mem_singleton.mpr hi')
      have hstep : Collector.step (Finset.range total) held {number x} = (∅, true) := if_pos hall
      simp only [hstep, if_true] at hout
      obtain ⟨r, hr, hactions⟩ := Node.receivePacket_whole (b := { b with actions, reassembly := buffer })
        hfragment hlong hout fun recv => hwhole _ recv x.fromAddr x.now
      refine ⟨r.node, ?_⟩
      rw [Node.receiveAll, hr, ok_bind]
      simp [Node.receiveAll, hactions]
    | cons y rest' =>
      have hother : ¬ Finset.range total ⊆ held ∪ {number x} := by
        intro hall
        obtain ⟨hy, hyHeld⟩ := (hmissing (number y)).mp (List.mem_cons_of_mem _ List.mem_cons_self)
        rcases Finset.mem_union.mp (hall (Finset.mem_range.mpr hy)) with h | h
        · exact hyHeld h
        · rw [Finset.mem_singleton] at h
          exact hnew (by rw [← h]; exact List.mem_cons_self)
      have hstep : Collector.step (Finset.range total) held {number x} = (held ∪ {number x}, false) := if_neg hother
      simp only [hstep, Bool.false_eq_true, if_false] at hholds hout
      obtain ⟨r, hr, hnothing, hnode⟩ := Node.receivePacket_kept (b := { b with actions, reassembly := buffer })
        hfragment hlong pr x.fromAddr hout
      have hmissing' : ∀ i, i ∈ (y :: rest').map number ↔ i < total ∧ i ∉ held ∪ {number x} := by
        intro i
        have hi := hmissing i
        rw [List.map_cons, List.mem_cons] at hi
        simp only [Finset.mem_union, Finset.mem_singleton, not_or]
        constructor
        · intro hin
          obtain ⟨hlt, hnot⟩ := hi.mp (.inr hin)
          exact ⟨hlt, hnot, fun heq => hnew (heq ▸ hin)⟩
        · rintro ⟨hlt, hnot, hne⟩
          exact (hi.mpr ⟨hlt, hnot⟩).resolve_left hne
      obtain ⟨b', hb'⟩ := ih (by simp) hrest hnodup' _ hmissing' [] _ hholds
      refine ⟨b', ?_⟩
      rw [Node.receiveAll, hr, ok_bind, hnode, hb', ok_bind, hnothing]
      rfl

end

/-! ### From member to member -/

namespace Vl2

/-- The member a frame is for, by the destination of its IP header. -/
def selectedMember (network : NetworkMembership) (ethertype : UInt16) (payload : Bytes) : Option NetworkMember :=
  if ethertype = Ethernet.ethertypeIpv4 then network.lookupIpv4 (fieldAt 4 payload 16)
  else if ethertype = Ethernet.ethertypeIpv6 then network.lookupIpv6 (fieldAt 16 payload 24)
  else none

/-- The datagrams among some actions. -/
def datagrams (actions : List NodeAction) : List Bytes :=
  actions.filterMap fun
    | .sendTo data _ => some data
    | _ => none

theorem mem_of_selectedMember {network : NetworkMembership} {ethertype : UInt16} {payload : Bytes}
    {member : NetworkMember} (h : selectedMember network ethertype payload = some member) : member ∈ network.members := by
  unfold selectedMember at h
  split at h
  · exact List.mem_of_find?_eq_some h
  · split at h
    · exact List.mem_of_find?_eq_some h
    · cases h

/-- What is sent for a member is its packet, whole or in pieces. -/
theorem sent_of_selected {pr : Primitives} {a a' : Node} {networkId : UInt64} {net : NetworkMembership}
    {member : NetworkMember} {ethertype : UInt16} {payload : Bytes} {ours : ByteVec 5} {now : UInt64}
    {actions : List NodeAction} (hnet : a.findNetwork networkId = some net)
    (hselect : selectedMember net ethertype payload = some member)
    (hsend : processOutboundFrame pr a networkId ethertype payload ours now = .ok (a', actions))
    (hsome : datagrams actions ≠ []) :
    ∃ secret sealed, (a.topology.getPeer member.ztAddress).bind Peer.sharedSecret = some secret ∧
      Salsa.armorPacket pr secret (encryptedVerbPacket a.nextPacketId ours member.ztAddress .extFrame
        (ExtFramePayload.serialize ⟨net.networkId, 0, member.mac, net.ourMac ours, ethertype, payload⟩)) true =
          .ok sealed ∧
      fragmentPacket sealed net.mtu.toNat = some (datagrams actions) := by
  have hmember : (a', actions) = sendToMember pr a net member ethertype payload ours now := by
    unfold processOutboundFrame at hsend
    rw [hnet] at hsend
    simp only at hsend
    unfold selectedMember at hselect
    split at hselect
    · rename_i hipv4
      rw [if_neg (by rw [hipv4]; decide), if_pos hipv4] at hsend
      split at hsend
      · obtain ⟨-, rfl⟩ := Prod.mk.inj (Except.ok.inj hsend)
        exact absurd rfl hsome
      · rw [hselect] at hsend
        exact (Except.ok.inj hsend).symm
    · rename_i hnot
      split at hselect
      · rename_i hipv6
        rw [if_neg (by rw [hipv6]; decide), if_neg hnot, if_pos hipv6] at hsend
        split at hsend
        · obtain ⟨-, rfl⟩ := Prod.mk.inj (Except.ok.inj hsend)
          exact absurd rfl hsome
        · rw [hselect] at hsend
          exact (Except.ok.inj hsend).symm
      · cases hselect
  unfold sendToMember at hmember
  simp only at hmember
  split at hmember
  · obtain ⟨-, rfl⟩ := Prod.mk.inj hmember
    exact absurd rfl hsome
  · rename_i address secret hpath
    obtain ⟨peer, hpeer, hbest⟩ := Option.bind_eq_some_iff.mp hpath
    obtain ⟨path, -, hsecret⟩ := Option.bind_eq_some_iff.mp hbest
    obtain ⟨secret', hsecret', heq⟩ := Option.map_eq_some_iff.mp hsecret
    obtain ⟨-, rfl⟩ := Prod.mk.inj heq
    split at hmember
    · obtain ⟨-, rfl⟩ := Prod.mk.inj hmember
      exact absurd rfl hsome
    · rename_i sealed hsealed
      obtain ⟨-, rfl⟩ := Prod.mk.inj hmember
      refine ⟨secret', sealed, by rw [hpeer]; exact hsecret', hsealed, ?_⟩
      unfold fragmentedSend at hsome ⊢
      cases hpieces : fragmentPacket sealed net.mtu.toNat with
      | none =>
        rw [hpieces] at hsome
        exact absurd rfl hsome
      | some pieces => simp [datagrams, List.filterMap_map]

end Vl2

/-- The piece that a datagram says it is. -/
def Arrival.number (x : Arrival) : Nat := (FragmentHeader.read x.data).fragmentNumber.toNat

section
variable {packet : Bytes} {size total : Nat} (ht : total ≤ Constants.maxPacketFragments)
include ht

theorem number_fragmentPiece {n : Nat} (hn : n < total) :
    (FragmentHeader.read (fragmentPiece packet size total n)).fragmentNumber.toNat = n := by
  obtain ⟨-, -, -, -, -, hnumber, -⟩ := fragmentPiece_fields packet size total n ht hn
  have h7 : Constants.maxPacketFragments = 7 := rfl
  rw [hnumber]
  simp
  omega

/-- Arrivals of pieces in any order have the numbers of the pieces. -/
theorem numbers_of_perm {arrivals : List Arrival}
    (hperm : (arrivals.map Arrival.data).Perm ((List.range total).map (fragmentPiece packet size total))) :
    (∀ x ∈ arrivals, x.data = fragmentPiece packet size total x.number) ∧
      (arrivals.map Arrival.number).Perm (List.range total) := by
  constructor
  · intro x hx
    obtain ⟨n, hn, heq⟩ := List.mem_map.mp (hperm.mem_iff.mp (List.mem_map_of_mem hx))
    rw [Arrival.number, ← heq, number_fragmentPiece ht (List.mem_range.mp hn)]
  · have hmap := hperm.map fun data => (FragmentHeader.read data).fragmentNumber.toNat
    rw [List.map_map, List.map_map] at hmap
    have hsame : (List.range total).map ((fun data => (FragmentHeader.read data).fragmentNumber.toNat) ∘
        fragmentPiece packet size total) = List.range total := by
      refine (List.map_congr_left fun n hn => ?_).trans (List.map_id _)
      exact number_fragmentPiece ht (List.mem_range.mp hn)
    rw [hsame] at hmap
    exact hmap

end

open Service in
/-- A frame for a member is delivered: whatever the order in which the datagrams that a
node sends for it arrive, the member hands out the frame once, from the sender's MAC to
its own, and nothing else. -/
theorem frame_delivered (pr : Primitives) {identity : Identity} {planetData : Bytes} {initialPacketId : UInt64}
    {start a b : Node} {t : List (Entry Node Event Output)}
    (hstart : Node.new identity planetData initialPacketId = .ok start) (hrun : NodeRun pr start t a)
    (hjoins : ∀ e ∈ t, JoinsOwnMacs e) (haddress : byteAt a.address.toBytes 0 ≠ 0xff) {secret : Secret}
    (hours : (a.topology.getPeer b.address).bind Peer.sharedSecret = some secret)
    (htheirs : (b.topology.getPeer a.address).bind Peer.sharedSecret = some secret) {networkId : UInt64}
    (hcom : Vl2.hasPeerCom pr b networkId a.address = true) {net : NetworkMembership}
    (hnet : a.findNetwork networkId = some net) {ethertype : UInt16} {payload : Bytes} {member : NetworkMember}
    (hselect : Vl2.selectedMember net ethertype payload = some member) (hmember : member.ztAddress = b.address)
    {now : UInt64} {a' : Node} {actions : List NodeAction}
    (hsend : Vl2.processOutboundFrame pr a networkId ethertype payload a.address now = .ok (a', actions))
    (hsome : Vl2.datagrams actions ≠ []) (hfree : b.reassembly.pending.get? a.nextPacketId = none)
    {arrivals : List Arrival} (hperm : (arrivals.map Arrival.data).Perm (Vl2.datagrams actions)) :
    ∃ b', b.receiveAll pr arrivals = .ok (b', [.frameReceived networkId (Ethernet.deriveMac a.address networkId)
      (Ethernet.deriveMac b.address networkId) ethertype payload]) := by
  obtain ⟨secret', sealed, hsecret, hsealed, hpieces⟩ := Vl2.sent_of_selected hnet hselect hsend hsome
  have hmac := run_ownMacs hstart hrun hjoins net (List.mem_of_find?_eq_some hnet) member
    (Vl2.mem_of_selectedMember hselect)
  obtain rfl : net.networkId = networkId := by simpa using List.find?_some hnet
  rw [hmember] at hsecret hsealed hmac
  obtain rfl := Option.some.inj (hsecret.symm.trans hours)
  rw [hmac] at hsealed
  have hsecretB : b.sharedSecretForPeer pr a.address = some secret' := by
    obtain ⟨peer, hpeer, hheld⟩ := Option.bind_eq_some_iff.mp htheirs
    rw [Node.sharedSecretForPeer, hpeer, Option.bind_some, hheld]
  by_cases hfits : sealed.length ≤ net.mtu.toNat
  · rw [fragmentPacket, if_pos hfits, Option.some.injEq] at hpieces
    rw [← hpieces] at hperm
    obtain ⟨x, rfl, hx⟩ := List.map_eq_singleton_iff.mp (List.perm_singleton.mp hperm)
    obtain ⟨r, hr, -, hactions⟩ := Node.receiveWith_extFrame (Node.receiveFuel pr (b.heldBytes + x.data.length))
      hsealed hsecretB haddress hcom x.fromAddr x.now
    refine ⟨r.node, ?_⟩
    have hr' : b.receivePacket pr x.data x.fromAddr x.now = .ok r := by
      rw [← hr, ← hx]
      rfl
    rw [Node.receiveAll, hr', ok_bind]
    simp [Node.receiveAll, hactions, NetworkMembership.ourMac]
  · obtain ⟨size, total, -, hsize, -, ht, hcover, hbelow, heq⟩ :=
      fragmentPacket_cases (Nat.lt_of_not_le hfits) hpieces
    rw [heq] at hperm hsome
    obtain ⟨hdata, hnumbers⟩ := numbers_of_perm ht hperm
    obtain ⟨sealed', -, harmor, -, htake, -⟩ := dearmor_encrypted pr secret' a.nextPacketId b.address a.address
      Verb.extFrame.toByte (ExtFramePayload.serialize ⟨net.networkId, 0, _, net.ourMac a.address, ethertype, payload⟩)
    obtain rfl : sealed' = sealed := Except.ok.inj (harmor.symm.trans hsealed)
    obtain ⟨-, -, -, hid⟩ := Node.read_sealed htake
    refine receiveAll_pieces (b := b) ht hsize hcover hbelow ?_ Arrival.number arrivals ?_ hdata
      (hnumbers.nodup_iff.mpr List.nodup_range) ∅ ?_ b.actions b.reassembly ?_
    · intro buffer recv fromAddr now
      exact Node.receiveWith_extFrame (b := { b with actions := [], reassembly := buffer }) recv hsealed hsecretB
        haddress hcom fromAddr now
    · rintro rfl
      exact hsome (List.nil_perm.mp hperm)
    · intro i
      rw [hnumbers.mem_iff]
      simp
    · rw [hid, BufferHolds, hfree]

/-! ### A frame in two pieces -/

namespace SampleFrame

def address (k : UInt8) : ByteVec 5 := (Sample.identity k).address.bytes

/-- Member number 3, at 10.0.0.3. -/
def receiverMember : NetworkMember where
  ztAddress := address 3
  mac := Ethernet.deriveMac (address 3) Sample.networkId
  ipv4 := some (⟨[10, 0, 0, 3], rfl⟩, 24)
  ipv6 := none
  authorized := true

/-- What number 1 joins: packets of more than 60 bytes are cut. -/
def membership : NetworkMembership :=
  { NetworkMembership.new Sample.networkId 60 with members := [receiverMember] }

theorem membership_ownMacs : membership.OwnMacs := by
  intro m hm
  obtain rfl := List.mem_singleton.mp hm
  rfl

/-- The answer of number 3 to a HELLO, which starts a session. -/
def answer : Bytes :=
  Sample.sentBy 3 9 .ok (OkPayload.serialize ⟨.hello, 5, .hello 900 12 0 1 0 none⟩)

/-- Number 3, with a session with number 1 and the certificate of number 1. -/
def receiver : Node :=
  let topology := Sample.start.topology.addPeer { Sample.identity 1 with secret := none }
  { Sample.start with
    identity := Sample.identity 3
    topology := topology.modifyPeer (address 1) fun peer =>
      peer.establishSession Sample.primitives (Sample.key 3) 0 1000
    networks := [{ NetworkMembership.new Sample.networkId 2800 with
      ourCom := some (Service.sampleCom 3), peerComs := [(address 1, Service.sampleCom 1)] }] }

/-- The header of an IPv4 packet to 10.0.0.3. -/
def frame : Bytes := [0x45, 0, 0, 20, 0, 0, 0, 0, 64, 17, 0, 0, 10, 0, 0, 1, 10, 0, 0, 3]

def secret : Secret := KeyAgreement.keyAgree Sample.primitives (Sample.key 1) (Sample.key 3)

end SampleFrame

open Service SampleFrame in
/-- The second piece arrives first, and the frame is handed out. -/
theorem frame_delivered_reversed : ∃ (a a' b' : Node) (actions : List NodeAction) (first second : Bytes),
    Vl2.processOutboundFrame Sample.primitives a Sample.networkId Ethernet.ethertypeIpv4 frame a.address 2000 =
      .ok (a', actions) ∧ Vl2.datagrams actions = [first, second] ∧
    receiver.receiveAll Sample.primitives [⟨second, Sample.endpoint 10, 2000⟩, ⟨first, Sample.endpoint 10, 2001⟩] =
      .ok (b', [.frameReceived Sample.networkId (Ethernet.deriveMac (address 1) Sample.networkId)
        (Ethernet.deriveMac (address 3) Sample.networkId) Ethernet.ethertypeIpv4 frame]) := by
  have hcheck : okWith (step Sample.primitives (Sample.start.joinNetwork membership)
      (.receive answer (Sample.endpoint 30) 1000)) (fun r =>
        r.1.address = address 1 ∧ r.1.nextPacketId = 2 ∧ r.1.findNetwork Sample.networkId = some membership ∧
        (r.1.topology.getPeer (address 3)).bind Peer.sharedSecret = some secret ∧
        okWith (Vl2.processOutboundFrame Sample.primitives r.1 Sample.networkId Ethernet.ethertypeIpv4 frame
          (address 1) 2000) (fun r => (Vl2.datagrams r.2).length = 2) = true) = true := by
    decide +kernel
  obtain ⟨⟨a, o⟩, hstep, hall⟩ := exists_of_okWith hcheck
  obtain ⟨haddress, hid, hnet, hsecret, hsent⟩ := of_decide_eq_true hall
  obtain ⟨⟨a', actions⟩, hsend, htwo⟩ := exists_of_okWith hsent
  obtain ⟨first, second, hpieces⟩ := List.length_eq_two.mp (of_decide_eq_true htwo)
  have hrun : NodeRun Sample.primitives Sample.start _ a :=
    Run.snoc (Run.one (rfl : step Sample.primitives Sample.start (.joinNetwork membership) =
      .ok (Sample.start.joinNetwork membership, ⟨[], []⟩))) hstep
  have hjoins : ∀ e ∈ [(⟨Sample.start, .joinNetwork membership, ⟨[], []⟩, Sample.start.joinNetwork membership⟩ :
      Entry Node Event Output)] ++ [⟨Sample.start.joinNetwork membership, .receive answer (Sample.endpoint 30) 1000,
        o, a⟩], JoinsOwnMacs e := by
    intro e he membership' hjoin
    rcases List.mem_pair.mp he with rfl | rfl
    · cases hjoin
      exact membership_ownMacs
    · cases hjoin
  have htheirs : (receiver.topology.getPeer (address 1)).bind Peer.sharedSecret = some secret := by decide
  have hcom : Vl2.hasPeerCom Sample.primitives receiver Sample.networkId (address 1) = true := by decide +kernel
  have hselect : Vl2.selectedMember membership Ethernet.ethertypeIpv4 frame = some receiverMember := by decide
  rw [← haddress] at hsend htheirs hcom
  have hperm : (([⟨second, Sample.endpoint 10, 2000⟩, ⟨first, Sample.endpoint 10, 2001⟩] : List Arrival).map
      Arrival.data).Perm (Vl2.datagrams actions) := by
    rw [hpieces]
    exact .swap _ _ _
  obtain ⟨b', hdelivered⟩ := frame_delivered Sample.primitives (b := receiver) Sample.new_start hrun hjoins
    (by rw [haddress]; decide) hsecret htheirs hcom hnet hselect rfl hsend (by rw [hpieces]; simp) rfl hperm
  rw [haddress] at hdelivered
  exact ⟨a, a', b', actions, first, second, hsend, hpieces, hdelivered⟩

end ManyTier
