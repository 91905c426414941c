import ManyTier.Node.Calls
import ManyTier.Node.ConfigContent

/-! What only a few operations touch.

The multicast subscriptions, the packets that wait, the limits on configuration
requests and the requests sent are each touched in a few places. `Steady` says that an
operation leaves all of them alone, with the identity; every operation that does is
listed here once. -/
namespace ManyTier

/-- The network a membership is of, and when a configuration was last asked for. -/
def NetworkMembership.limit (net : NetworkMembership) : UInt64 × UInt64 :=
  (net.networkId, net.lastConfigRequest)

theorem NetworkMembership.lastConfigRequest_applyDictionary (net : NetworkMembership) (ourAddress : ByteVec 5)
    (dictData : Bytes) : (net.applyDictionary ourAddress dictData).lastConfigRequest = net.lastConfigRequest := by
  have hsettings : (net.applySettings dictData).lastConfigRequest = net.lastConfigRequest := by
    unfold applySettings
    simp only
    split
    · rfl
    · rw [applyRoutes_eq, applyAssignments_eq, applyOurCom_eq]
  rw [applyDictionary_eq]
  split
  · exact hsettings
  · exact hsettings

/-- The network a packet asks a configuration for, if it is a NETWORK_CONFIG_REQUEST. -/
def Armored.configRequest (a : Armored) : Option UInt64 :=
  if (PacketHeader.read a.packet).verb &&& 0x1f = Verb.networkConfigRequest.toByte then
    some (u64At a.packet Constants.minPacketLength)
  else none

/-- The configuration requests a node has sent, by network. -/
def Node.configRequests (n : Node) : List UInt64 := n.armored.filterMap Armored.configRequest

/-- The subscriptions, the packets that wait, the limits and the requests are the same. -/
structure Steady (n n' : Node) : Prop where
  identity : n'.identity = n.identity
  multicast : n'.multicastManager = n.multicastManager
  waiting : n'.pendingEncryptedPackets = n.pendingEncryptedPackets
  limits : n'.networks.map NetworkMembership.limit = n.networks.map NetworkMembership.limit
  requests : n'.configRequests = n.configRequests

namespace Steady
variable {a b c : Node}

theorem refl (n : Node) : Steady n n := ⟨rfl, rfl, rfl, rfl, rfl⟩

theorem trans (h : Steady a b) (h' : Steady b c) : Steady a c :=
  ⟨h'.identity.trans h.identity, h'.multicast.trans h.multicast, h'.waiting.trans h.waiting,
    h'.limits.trans h.limits, h'.requests.trans h.requests⟩

theorem foldl {α : Type} (f : Node → α → Node) (hf : ∀ n x, Steady n (f n x)) (l : List α) (n : Node) :
    Steady n (l.foldl f n) := by
  induction l generalizing n with
  | nil => exact .refl n
  | cons x rest ih => exact (hf n x).trans (ih _)

end Steady

/-! ### The small operations -/

namespace Node
variable (pr : Primitives) (n : Node)

theorem steady_pushAction (a : NodeAction) : Steady n (n.pushAction a) := ⟨rfl, rfl, rfl, rfl, rfl⟩

theorem steady_allocatePacketId : Steady n n.allocatePacketId.2 := ⟨rfl, rfl, rfl, rfl, rfl⟩

theorem steady_modifyPeer (address : ByteVec 5) (f : Peer → Peer) : Steady n (n.modifyPeer address f) :=
  ⟨rfl, rfl, rfl, rfl, rfl⟩

theorem steady_modifyNetwork (networkId : UInt64) {f : NetworkMembership → NetworkMembership}
    (hf : ∀ net, (f net).limit = net.limit) : Steady n (n.modifyNetwork networkId f) :=
  ⟨rfl, rfl, rfl, map_modifyFirst _ fun net _ => hf net, rfl⟩

/-- A packet of another kind is no request. -/
theorem steady_sendArmored (secret : Secret) (packet : Bytes) (encrypt : Bool) (address : SocketAddr)
    (hverb : (PacketHeader.read packet).verb &&& 0x1f ≠ Verb.networkConfigRequest.toByte) :
    Steady n (n.sendArmored pr secret packet encrypt address) := by
  unfold sendArmored
  split
  · refine ⟨rfl, rfl, rfl, rfl, ?_⟩
    simp [configRequests, Armored.configRequest, hverb]
  · exact .refl n

/-- The verb of a packet behind a plain header. -/
theorem verb_ne_request (verb : Verb) (hne : verb ≠ .networkConfigRequest) :
    verb.toByte &&& 0x1f ≠ Verb.networkConfigRequest.toByte := by
  cases verb <;> first | exact absurd rfl hne | decide

theorem steady_sendVerb (secret : Secret) (packetId : UInt64) (ours dest : ByteVec 5) {verb : Verb} (payload : Bytes)
    (encrypt : Bool) (address : SocketAddr) (hne : verb ≠ .networkConfigRequest) :
    Steady n (n.sendArmored pr secret (encryptedVerbPacket packetId ours dest verb payload) encrypt address) := by
  refine steady_sendArmored pr n _ _ _ _ ?_
  rw [encryptedVerbPacket, read_plainHeader]
  exact verb_ne_request _ hne

theorem steady_sendEncrypted (dest : ByteVec 5) (verb : Verb) (payload : Bytes) (secret : Secret)
    (address : SocketAddr) (hne : verb ≠ .networkConfigRequest) :
    Steady n (n.sendEncrypted pr dest verb payload secret address) :=
  (steady_allocatePacketId n).trans (steady_sendVerb pr _ _ _ _ _ _ _ _ hne)

/-- A HELLO is a HELLO, with its last field encrypted. -/
theorem verb_buildHello {ourIdentity : Identity} {dest : ByteVec 5} {target : SocketAddr} {now : UInt64}
    {secret : Secret} {worldId worldTimestamp : UInt64} {packet : Bytes}
    (h : RootManager.buildHello pr ourIdentity dest target now secret worldId worldTimestamp = .ok packet) :
    (PacketHeader.read packet).verb = Verb.hello.toByte := by
  unfold RootManager.buildHello at h
  simp only at h
  unfold Salsa.cryptPacketField at h
  split at h
  · cases h
  · rename_i hlen
    have hpacket := Except.ok.inj h
    set hello := HelloPayload.serialize _ with hhello
    set front := plainHeader now dest ourIdentity.address.bytes (Constants.cipherNone <<< 3) Verb.hello.toByte ++ hello
      with hfront
    have h28 : 28 ≤ front.length := by
      rw [hfront, List.length_append, length_plainHeader]
      exact Nat.le_add_right _ _
    have htake : packet.take front.length = front := by
      rw [← hpacket, overwrite, List.append_assoc, List.take_left' (by simp), List.append_assoc,
        List.take_left' rfl]
    have hverb : byteAt packet 27 = byteAt front 27 := by
      rw [← htake]
      simp [byteAt, show 27 < front.length by omega]
    show byteAt packet 27 = _
    rw [hverb, hfront]
    exact congrArg PacketHeader.verb (read_plainHeader now dest ourIdentity.address.bytes _ _ hello)

theorem steady_sendHello (dest : ByteVec 5) (target : SocketAddr) (now : UInt64) :
    Steady n (n.sendHello pr dest target now) := by
  unfold sendHello
  simp only
  split
  · rename_i packet hpacket
    refine steady_sendArmored pr n _ _ _ _ ?_
    rw [verb_buildHello pr hpacket]
    decide
  · exact .refl n

/-! ### Receiving -/

theorem steady_maybeSendRendezvous (source dest : ByteVec 5) (now : UInt64) :
    Steady n (n.maybeSendRendezvous pr source dest now) := by
  unfold maybeSendRendezvous
  split
  · exact (steady_sendVerb pr n _ _ _ _ _ _ _ (by decide)).trans
      (steady_sendVerb pr _ _ _ _ _ _ _ _ (by decide))
  · exact .refl n

theorem steady_handleRelay (data : Bytes) (now : UInt64) : Steady n (n.handleRelay pr data now) := by
  unfold handleRelay
  split
  · exact .refl n
  · simp only
    split
    · exact (steady_pushAction n _).trans (steady_maybeSendRendezvous pr _ ..)
    · exact steady_pushAction n _
    · exact .refl n

theorem steady_handleHello (packet : Bytes) (fromAddr : SocketAddr) (now packetId : UInt64) :
    Steady n (n.handleHello pr packet fromAddr now packetId) := by
  have haccept : ∀ hello secret, Steady n (n.acceptHello pr packet hello secret fromAddr now packetId) := by
    intro hello secret
    refine Steady.trans ?_ (steady_sendVerb pr _ _ _ _ _ _ _ _ (by decide))
    exact ⟨rfl, rfl, rfl, rfl, rfl⟩
  unfold handleHello
  split
  · exact .refl n
  · split
    · exact .refl n
    · split
      · exact .refl n
      · split
        · exact .refl n
        · exact haccept _ _

theorem steady_sendProbeHello (peerAddress : ByteVec 5) (target : SocketAddr) (now : UInt64) :
    Steady n (n.sendProbeHello pr peerAddress target now) := by
  unfold sendProbeHello
  split
  · exact .refl n
  · exact steady_sendHello ..

theorem steady_handlePushDirectPaths (packet : Bytes) (fromAddr : SocketAddr) (now : UInt64) :
    Steady n (n.handlePushDirectPaths pr packet fromAddr now) := by
  unfold handlePushDirectPaths
  split
  · exact .refl n
  · simp only
    split
    · exact .refl n
    · rename_i peer _
      have hheard := steady_modifyPeer n (PacketHeader.read packet).source fun _ =>
        peer.addPath fromAddr (arrivedDirectly packet) now
      exact hheard.trans (.foldl _ (fun m target => steady_sendProbeHello pr m _ target now) _ _)

theorem steady_handleRendezvous (packet : Bytes) (now : UInt64) : Steady n (n.handleRendezvous pr packet now) := by
  unfold handleRendezvous
  split
  · exact .refl n
  · split
    · exact .refl n
    · exact steady_sendProbeHello ..

theorem steady_handleWhois {n n' : Node} {packet : Bytes} {fromAddr : SocketAddr} {now : UInt64}
    (h : n.handleWhois pr packet fromAddr now = .ok n') : Steady n n' := by
  have hanswer : ∀ {dest inRePacketId known m}, n.answerWhois pr dest inRePacketId known fromAddr now = .ok m →
      Steady n m := by
    intro dest inRePacketId known m hm
    unfold answerWhois at hm
    split at hm
    · cases hm
      exact .refl n
    · split at hm
      · cases hm
        exact .refl n
      · simp only at hm
        split at hm
        · cases hm
        · cases hm
          exact steady_sendVerb pr n _ _ _ _ _ _ _ (by decide)
  unfold handleWhois at h
  split at h
  · cases h
    exact .refl n
  · simp only at h
    split at h
    · cases h
    · rename_i m hm
      cases h
      refine (hanswer hm).trans ?_
      split
      · exact .refl _
      · exact steady_pushAction _ _

theorem steady_handleEcho {n n' : Node} {packet : Bytes} {fromAddr : SocketAddr} {packetId : UInt64}
    (h : n.handleEcho pr packet fromAddr packetId = .ok n') : Steady n n' := by
  unfold handleEcho at h
  simp only at h
  split at h
  · cases h
    exact .refl n
  · split at h
    · cases h
      exact .refl n
    · split at h
      · cases h
      · cases h
        refine (steady_allocatePacketId n).trans (steady_sendArmored pr _ _ _ _ _ ?_)
        rw [echoAnswer, read_plainHeader]
        exact verb_ne_request .ok (by decide)

theorem steady_applyReceivedNetworkConfig (nc : NetworkConfigPayload) :
    Steady n (n.applyReceivedNetworkConfig nc) := by
  unfold applyReceivedNetworkConfig
  split
  · exact .refl n
  · simp only
    split
    · exact ⟨rfl, rfl, rfl, rfl, rfl⟩
    · refine Steady.trans ?_ (steady_pushAction _ _)
      refine Steady.trans ?_ (steady_modifyNetwork _ _ fun _ => rfl)
      refine Steady.trans (b := { n with pendingNetworkConfigs := (assembleNetworkConfig n.pendingNetworkConfigs nc).1 })
        ⟨rfl, rfl, rfl, rfl, rfl⟩ (steady_modifyNetwork _ _ fun net => ?_)
      rw [NetworkMembership.limit, net.networkId_applyDictionary, net.lastConfigRequest_applyDictionary]
      rfl

theorem steady_handleNetworkConfig (packet : Bytes) : Steady n (n.handleNetworkConfig packet) := by
  unfold handleNetworkConfig
  split
  · exact .refl n
  · exact steady_applyReceivedNetworkConfig ..

theorem steady_deliverFrame (sender : ByteVec 5) (networkId : UInt64) (srcMac destMac : Mac)
    (ethertype : UInt16) (payload : Bytes) :
    Steady n (Vl2.deliverFrame pr n sender networkId srcMac destMac ethertype payload) := by
  unfold Vl2.deliverFrame
  split
  · exact steady_pushAction ..
  · exact .refl n

theorem steady_handleMulticastGather (sender : ByteVec 5) (payload : Bytes) (fromAddr : SocketAddr)
    (inRePacketId : UInt64) :
    Steady n (Vl2.handleMulticastGather pr n sender payload fromAddr inRePacketId) := by
  unfold Vl2.handleMulticastGather
  split
  · exact .refl n
  · simp only
    split
    · exact .refl n
    · exact steady_sendEncrypted pr n _ _ _ _ _ (by decide)

theorem steady_handleReport (verb : Verb) (source : ByteVec 5) (payload : Bytes) (fromAddr : SocketAddr)
    (packetId : UInt64) : Steady n (n.handleReport verb source payload fromAddr packetId) := by
  unfold handleReport
  split <;> first
    | exact .refl n
    | (split <;> first | exact .refl n | exact steady_pushAction n _)

theorem steady_learnIdentity (identity : Identity) (now : UInt64) :
    Steady n (n.learnIdentity pr identity now) := by
  unfold learnIdentity
  simp only
  split
  · refine Steady.trans ?_ (steady_sendHello pr _ ..)
    exact ⟨rfl, rfl, rfl, rfl, rfl⟩
  · exact ⟨rfl, rfl, rfl, rfl, rfl⟩

/-- Two verbs touch what is steady: MULTICAST_LIKE and NETWORK_CREDENTIALS. -/
theorem steady_handleVerb {verb : Verb} {d : Dispatch} {fromAddr : SocketAddr} {now : UInt64} {n' : Node}
    (h : handleVerb pr verb d fromAddr now = .ok n') (hlike : verb ≠ .multicastLike)
    (hcreds : verb ≠ .networkCredentials) : Steady d.node n' := by
  unfold handleVerb at h
  simp only at h
  split at h
  case h_2 => exact steady_handleWhois pr h
  case h_4 => exact steady_handleEcho pr h
  case h_7 => exact absurd rfl hcreds
  case h_10 => exact absurd rfl hlike
  all_goals obtain rfl := Except.ok.inj h
  · exact steady_handleHello ..
  · exact steady_handleRendezvous ..
  · exact steady_handlePushDirectPaths ..
  · exact steady_handleNetworkConfig ..
  · unfold Vl2.handleFrame
    split
    · exact .refl _
    · exact steady_deliverFrame ..
  · unfold Vl2.handleExtFrame
    split
    · exact .refl _
    · exact steady_deliverFrame ..
  · exact steady_handleMulticastGather ..
  · unfold Vl2.handleMulticastFrame
    split
    · exact .refl _
    · exact steady_deliverFrame ..
  · exact steady_handleReport ..

/-- What a packet does that makes no call: nothing to what is steady, or it carries
subscriptions, credentials or the answer to a question for subscribers. -/
theorem handleAlone_steady {d : Dispatch} {fromAddr : SocketAddr} {now : UInt64} {n' : Node}
    (h : handleAlone pr d fromAddr now = .ok n') :
    Steady d.node n' ∨
    (Verb.fromByte d.verbId = some .multicastLike ∧
      n' = Vl2.handleMulticastLike d.node d.source (d.packet.drop Constants.minPacketLength) now) ∨
    (Verb.fromByte d.verbId = some .networkCredentials ∧ n' = d.node.handleNetworkCredentials d.packet) ∨
    (Verb.fromByte d.verbId = some .ok ∧ ∃ packetId data, n' = d.node.handleMulticastGatherOk packetId data now) := by
  unfold handleAlone at h
  split at h
  · cases h
    exact .inl (.refl _)
  · rename_i hverb
    split at h
    · cases h
      exact .inl (.refl _)
    · split at h
      · cases h
        exact .inl (steady_modifyPeer ..)
      · cases h
        exact .inl (.refl _)
      · cases h
        unfold handleOkGeneric
        split
        · exact .inr (.inr (.inr ⟨hverb, _, _, rfl⟩))
        · split
          · exact .inl (steady_applyReceivedNetworkConfig ..)
          · exact .inl (.refl _)
  · rename_i verb _ hverb
    by_cases hlike : verb = .multicastLike
    · subst hlike
      exact .inr (.inl ⟨hverb, (Except.ok.inj h).symm⟩)
    · by_cases hcreds : verb = .networkCredentials
      · subst hcreds
        exact .inr (.inr (.inl ⟨hverb, (Except.ok.inj h).symm⟩))
      · exact .inl (steady_handleVerb pr h hlike hcreds)

/-! ### The timer -/

theorem steady_greet (address : ByteVec 5) (target : SocketAddr) (now : UInt64) (remember : Peer → Peer) :
    Steady n (n.greet pr address target now remember) := by
  unfold greet
  simp only
  split
  · exact .refl n
  · rename_i packet hpacket
    split
    · refine (steady_sendArmored pr n _ _ _ _ ?_).trans (steady_modifyPeer _ _ _)
      rw [verb_buildHello pr hpacket]
      decide
    · exact .refl n

theorem steady_greetAll (targets : List (ByteVec 5 × SocketAddr)) (now packetId : UInt64) :
    Steady n (n.greetAll pr targets now packetId) :=
  .foldl _ (fun m _ => steady_greet pr m ..) _ _

theorem steady_pushDirectPaths (now : UInt64) : Steady n (n.pushDirectPaths pr now) := by
  unfold pushDirectPaths
  split
  · exact .refl n
  · refine .foldl _ (fun m _ => ?_) _ _
    unfold pushDirectPathsTo
    split
    · exact .refl m
    · exact (steady_sendEncrypted pr m _ _ _ _ _ (by decide)).trans (steady_modifyPeer _ _ _)

theorem steady_keepAlive (now : UInt64) : Steady n (n.keepAlive pr now) :=
  (((steady_greetAll pr n ..).trans (steady_greetAll pr _ ..)).trans (steady_pushDirectPaths pr _ now)).trans
    (steady_greetAll pr _ ..)

/-- The timer up to its configuration requests: what has expired is gone, the rest is steady. -/
theorem steady_greetings (now : UInt64) : Steady (n.expire now) (n.greetings pr now) := by
  have hstale : Steady (n.expire now) ((n.expire now).markStalePeers now) := ⟨rfl, rfl, rfl, rfl, rfl⟩
  exact (hstale.trans (steady_keepAlive pr _ now)).trans (steady_greetAll pr _ _ now now)

theorem networks_greetings (now : UInt64) : (n.greetings pr now).networks = n.networks := by
  have halive := (keepsNetworks_keepAlive pr ((n.expire now).markStalePeers now) now).networks
  exact (keepsNetworks_greetAll pr _ _ now now).networks.trans halive

/-- A fold over what is under way is steady if each turn is. -/
theorem steady_foldl_fst {α : Type} (f : Multicasting → α → Multicasting) (hf : ∀ m x, Steady m.1 (f m x).1)
    (l : List α) (m : Multicasting) : Steady m.1 (l.foldl f m).1 := by
  induction l generalizing m with
  | nil => exact .refl _
  | cons x rest ih => exact (hf m x).trans (ih _)

theorem steady_toPeer (now : UInt64) {send : Node → ByteVec 5 → Secret → SocketAddr → Node}
    (hsend : ∀ m address secret target, Steady m (send m address secret target))
    (m : Multicasting) (address : ByteVec 5) : Steady m.1 (toPeer now send m address).1 := by
  unfold toPeer
  split
  · exact hsend ..
  · exact .refl _

theorem steady_sendLikes (now : UInt64) (m : Multicasting) (net : NetworkMembership) :
    Steady m.1 (sendLikes pr now m net).1 := by
  unfold sendLikes
  refine Steady.trans ?_ (steady_foldl_fst _ (steady_toPeer now ?_) _ _)
  · refine steady_modifyNetwork _ _ ?_
    exact fun _ => rfl
  · exact fun _ _ _ _ => steady_sendEncrypted pr _ _ _ _ _ _ (by decide)

theorem steady_sendGather (networkId now : UInt64) (address : ByteVec 5) (secret : Secret) (target : SocketAddr)
    (group : MulticastGroup) : Steady n (sendGather pr networkId now address secret target n group) := by
  obtain ⟨asked, hgather⟩ := sendGather_eq pr n networkId now address secret target group
  rw [hgather]
  exact (steady_sendEncrypted pr n _ _ _ _ _ (by decide)).trans ⟨rfl, rfl, rfl, rfl, rfl⟩

theorem steady_sendGathers (now : UInt64) (m : Multicasting) (net : NetworkMembership × List MulticastGroup) :
    Steady m.1 (sendGathers pr now m net).1 := by
  unfold sendGathers
  refine Steady.trans ?_ (steady_foldl_fst _ (steady_toPeer now ?_) _ _)
  · refine steady_modifyNetwork _ _ ?_
    exact fun _ => rfl
  · exact fun _ _ _ _ => .foldl _ (fun _ _ => steady_sendGather pr _ ..) _ _

theorem steady_multicastRound (now : UInt64) : Steady n (n.multicastRound pr now) := by
  unfold multicastRound
  simp only
  set likes := List.foldl (sendLikes pr now) (n, []) _
  set done := List.foldl (sendGathers pr now) likes _
  have hlikes : Steady n likes.1 := steady_foldl_fst _ (steady_sendLikes pr now) _ (n, [])
  have hdone : Steady n done.1 := hlikes.trans (steady_foldl_fst _ (steady_sendGathers pr now) _ likes)
  split
  · exact hdone
  · exact hdone.trans (steady_pushAction _ _)

theorem tick_eq (now : UInt64) :
    n.tick pr now = (((n.greetings pr now).queueConfigRequests pr now).multicastRound pr now).takeActions := rfl

theorem steady_bootstrap (now : UInt64) : Steady n (n.bootstrap pr now).1 := by
  have hclear : Steady n { n with actions := [] } := ⟨rfl, rfl, rfl, rfl, rfl⟩
  have hgreet := hclear.trans (Steady.foldl (firstHello pr now)
    (fun m t => steady_greet pr m t.1 t.2 now (waiting now)) (n.rootTargets false) _)
  exact hgreet.trans ⟨rfl, rfl, rfl, rfl, rfl⟩

/-! ### Frames and questions of the host -/

theorem steady_sendWhois (addresses : List (ByteVec 5)) (now : UInt64) :
    Steady n (n.sendWhois pr addresses now).1 := by
  unfold sendWhois
  split
  · exact .refl n
  · rename_i root secret target _
    split
    · exact .refl n
    · rename_i packet hpacket
      have hverb : (PacketHeader.read packet).verb &&& 0x1f ≠ Verb.networkConfigRequest.toByte := by
        unfold RootManager.buildWhois at hpacket
        simp only at hpacket
        split at hpacket
        · cases hpacket
        · obtain rfl := Except.ok.inj hpacket
          rw [encryptedVerbPacket, read_plainHeader]
          exact verb_ne_request .whois (by decide)
      have hclear : Steady n { n with actions := [] } := ⟨rfl, rfl, rfl, rfl, rfl⟩
      have hsend := hclear.trans (steady_sendArmored pr _ secret packet true target hverb)
      exact ⟨hsend.identity, hsend.multicast, hsend.waiting, hsend.limits, hsend.requests⟩

theorem steady_sendToMember (network : NetworkMembership) (member : NetworkMember) (ethertype : UInt16)
    (payload : Bytes) (ourZtAddress : ByteVec 5) (now : UInt64) :
    Steady n (Vl2.sendToMember pr n network member ethertype payload ourZtAddress now).1 := by
  unfold Vl2.sendToMember
  simp only
  split
  · exact .refl n
  · split
    · exact steady_allocatePacketId n
    · refine ⟨rfl, rfl, rfl, rfl, ?_⟩
      have hverb : Verb.extFrame.toByte &&& 0x1f ≠ Verb.networkConfigRequest.toByte := by decide
      simp [configRequests, Armored.configRequest, encryptedVerbPacket, read_plainHeader, hverb, allocatePacketId]

/-- A frame of the host is steady, unless its destination is not known. -/
theorem processOutboundFrame_steady {n n' : Node} {networkId : UInt64} {ethertype : UInt16} {payload : Bytes}
    {ourZtAddress : ByteVec 5} {now : UInt64} {actions : List NodeAction}
    (h : Vl2.processOutboundFrame pr n networkId ethertype payload ourZtAddress now = .ok (n', actions)) :
    Steady n n' ∨ n' = Vl2.noteUnknownDestination n networkId now := by
  have hunicast : ∀ network member unknown, n.findNetwork networkId = some network →
      Steady n (Vl2.unicastOutbound pr n network member unknown ethertype payload ourZtAddress now).1 ∨
        (Vl2.unicastOutbound pr n network member unknown ethertype payload ourZtAddress now).1 =
          Vl2.noteUnknownDestination n networkId now := by
    intro network member unknown hfound
    have hid : network.networkId = networkId := by simpa using List.find?_some hfound
    unfold Vl2.unicastOutbound
    split
    · exact .inl (steady_sendToMember ..)
    · split
      · rw [hid]
        exact .inr rfl
      · exact .inl (.refl n)
  unfold Vl2.processOutboundFrame at h
  split at h
  · cases h
    exact .inl (.refl n)
  · rename_i network hfound
    split at h
    · obtain ⟨sent, -, heq⟩ := bind_eq_ok h
      cases heq
      exact .inl (.refl n)
    · split at h
      · split at h
        · cases h
          exact .inl (.refl n)
        · obtain ⟨rfl, -⟩ := Prod.mk.inj (Except.ok.inj h)
          exact hunicast _ _ _ hfound
      · split at h
        · split at h
          · cases h
            exact .inl (.refl n)
          · obtain ⟨rfl, -⟩ := Prod.mk.inj (Except.ok.inj h)
            exact hunicast _ _ _ hfound
        · cases h
          exact .inl (.refl n)

/-! ### Requests for a configuration -/

/-- The subscriptions and the packets that wait are the same; a configuration may have
been asked for. -/
structure Undisturbed (n n' : Node) : Prop where
  identity : n'.identity = n.identity
  multicast : n'.multicastManager = n.multicastManager
  waiting : n'.pendingEncryptedPackets = n.pendingEncryptedPackets

theorem Undisturbed.refl (n : Node) : Undisturbed n n := ⟨rfl, rfl, rfl⟩

theorem Undisturbed.trans {a b c : Node} (h : Undisturbed a b) (h' : Undisturbed b c) : Undisturbed a c :=
  ⟨h'.identity.trans h.identity, h'.multicast.trans h.multicast, h'.waiting.trans h.waiting⟩

theorem undisturbed_of_steady {a b : Node} (h : Steady a b) : Undisturbed a b :=
  ⟨h.identity, h.multicast, h.waiting⟩

theorem undisturbed_sendArmored (secret : Secret) (packet : Bytes) (encrypt : Bool) (address : SocketAddr) :
    Undisturbed n (n.sendArmored pr secret packet encrypt address) := by
  unfold sendArmored
  split
  · exact ⟨rfl, rfl, rfl⟩
  · exact .refl n

theorem undisturbed_sendEncrypted (dest : ByteVec 5) (verb : Verb) (payload : Bytes) (secret : Secret)
    (address : SocketAddr) : Undisturbed n (n.sendEncrypted pr dest verb payload secret address) :=
  (undisturbed_of_steady (steady_allocatePacketId n)).trans (undisturbed_sendArmored pr ..)

theorem undisturbed_modifyNetwork (networkId : UInt64) (f : NetworkMembership → NetworkMembership) :
    Undisturbed n (n.modifyNetwork networkId f) := ⟨rfl, rfl, rfl⟩

theorem networks_requestController (controller : ByteVec 5) (now : UInt64) :
    (n.requestController controller now).networks = n.networks := by
  unfold requestController
  split <;> rfl

theorem undisturbed_requestConfig (now networkId : UInt64) : Undisturbed n (requestConfig pr now n networkId) := by
  unfold requestConfig requestController
  simp only
  split
  · exact .refl n
  · split
    · split
      · exact ⟨rfl, rfl, rfl⟩
      · exact .refl n
    · split
      · exact .refl n
      · exact (undisturbed_sendEncrypted pr n ..).trans (undisturbed_modifyNetwork _ ..)

theorem undisturbed_queueConfigRequests (now : UInt64) : Undisturbed n (n.queueConfigRequests pr now) := by
  unfold queueConfigRequests
  simp only
  set due := (n.networks.filter (configDue now)).map NetworkMembership.networkId
  suffices h : ∀ m : Node, Undisturbed n m → Undisturbed n (due.foldl (requestConfig pr now) m) from
    h _ ⟨rfl, rfl, rfl⟩
  intro m hm
  induction due generalizing m with
  | nil => exact hm
  | cons networkId rest ih => exact ih _ (hm.trans (undisturbed_requestConfig pr m now networkId))

/-- Of a membership, requests touch whether and when one was made, and no more. -/
theorem map_networks_queueConfigRequests {α : Type} (f : NetworkMembership → α)
    (hf : ∀ net pending last, f { net with pendingConfigRequest := pending, lastConfigRequest := last } = f net)
    (now : UInt64) : (n.queueConfigRequests pr now).networks.map f = n.networks.map f := by
  have hrequest : ∀ (m : Node) networkId, (requestConfig pr now m networkId).networks.map f = m.networks.map f := by
    intro m networkId
    unfold requestConfig
    simp only
    split
    · rfl
    · split
      · exact congrArg _ (networks_requestController m ..)
      · split
        · rfl
        · refine (map_modifyFirst f fun net _ => hf net net.pendingConfigRequest now).trans ?_
          rw [(onlySends_sendEncrypted pr m ..).networks]
  unfold queueConfigRequests
  simp only
  set due := (n.networks.filter (configDue now)).map NetworkMembership.networkId
  suffices h : ∀ m : Node, m.networks.map f = n.networks.map f →
      (due.foldl (requestConfig pr now) m).networks.map f = n.networks.map f by
    apply h
    rw [List.map_map]
    apply List.map_congr_left
    intro net _
    simp only [Function.comp_apply]
    split
    · exact hf net true net.lastConfigRequest
    · rfl
  induction due with
  | nil => exact fun m h => h
  | cons networkId rest ih => exact fun m h => ih _ ((hrequest m networkId).trans h)

theorem undisturbed_flushConfigRequests (now : UInt64) : Undisturbed n (n.flushConfigRequests pr now).1 := by
  have hqueue := undisturbed_queueConfigRequests pr { n with actions := [] } now
  exact ⟨hqueue.identity, hqueue.multicast, hqueue.waiting⟩

theorem undisturbed_takeActions {a b : Node} (h : Undisturbed a b) : Undisturbed a b.takeActions.1 :=
  ⟨h.identity, h.multicast, h.waiting⟩

/-- The timer removes what has expired, and leaves the rest. -/
theorem undisturbed_tick (now : UInt64) : Undisturbed (n.expire now) (n.tick pr now).1 := by
  have hgreet := undisturbed_of_steady (steady_greetings pr n now)
  have hqueue := hgreet.trans (undisturbed_queueConfigRequests pr _ now)
  exact undisturbed_takeActions (hqueue.trans (undisturbed_of_steady (steady_multicastRound pr _ now)))

end Node

end ManyTier
