import ManyTier.Node.Tick

/-! What an operation leaves alone.

Six levels: `KeepsPeers` (the identity and the peers), `KeepsMemberships` (the identity, the
memberships and the configurations being assembled), `KeepsConfigs` (the same, but for the
timers of the memberships), `KeepsBuffers` (the identity, the fragments and the packets that
wait, and nothing for the host), `KeepsNetworks` (both, and the timers too) and `OnlySends`
(also the peers). Every operation of a node is put at its level once; what a result needs to
know of an operation it does not care about is read off the level. -/
namespace ManyTier

def NodeAction.isFrame : NodeAction → Bool
  | .frameReceived _ _ _ _ _ => true
  | _ => false

/-- The action is for a device of the host: a frame delivered, or the node's own reply. -/
def NodeAction.isForHost : NodeAction → Bool
  | .frameReceived _ _ _ _ _ => true
  | .localReply _ _ _ => true
  | _ => false

theorem NodeAction.isForHost_of_isFrame {a : NodeAction} (h : a.isFrame = true) : a.isForHost = true := by
  cases a with
  | frameReceived networkId srcMac destMac ethertype payload => rfl
  | _ => cases h

/-- The identity, what is held back, and what is for the host, are the same. -/
structure KeepsBuffers (n n' : Node) : Prop where
  identity : n'.identity = n.identity
  reassembly : n'.reassembly = n.reassembly
  pendingEncrypted : n'.pendingEncryptedPackets = n.pendingEncryptedPackets
  frames : n'.actions.filter NodeAction.isForHost = n.actions.filter NodeAction.isForHost

/-- So are the memberships and the configurations being assembled. -/
structure KeepsNetworks (n n' : Node) : Prop extends KeepsBuffers n n' where
  networks : n'.networks = n.networks
  pendingConfigs : n'.pendingNetworkConfigs = n.pendingNetworkConfigs

/-- So are the peers. -/
structure OnlySends (n n' : Node) : Prop extends KeepsNetworks n n' where
  topology : n'.topology = n.topology

/-- The identity and the peers are the same. -/
structure KeepsPeers (n n' : Node) : Prop where
  identity : n'.identity = n.identity
  topology : n'.topology = n.topology

/-- The identity, the memberships and the configurations being assembled are the same. -/
structure KeepsMemberships (n n' : Node) : Prop where
  identity : n'.identity = n.identity
  networks : n'.networks = n.networks
  pendingConfigs : n'.pendingNetworkConfigs = n.pendingNetworkConfigs

/-- A membership without its timers: what a configuration says. -/
def NetworkMembership.config (net : NetworkMembership) : NetworkMembership :=
  { net with
    pendingConfigRequest := false
    lastConfigRequest := 0
    lastMulticastLike := 0
    lastMulticastGather := 0 }

/-- The identity, the configurations and those being assembled are the same. -/
structure KeepsConfigs (n n' : Node) : Prop where
  identity : n'.identity = n.identity
  configs : n'.networks.map NetworkMembership.config = n.networks.map NetworkMembership.config
  pendingConfigs : n'.pendingNetworkConfigs = n.pendingNetworkConfigs

section
variable {a b c : Node}

theorem KeepsConfigs.refl (n : Node) : KeepsConfigs n n := ⟨rfl, rfl, rfl⟩

theorem KeepsConfigs.trans (h : KeepsConfigs a b) (h' : KeepsConfigs b c) : KeepsConfigs a c :=
  ⟨h'.identity.trans h.identity, h'.configs.trans h.configs, h'.pendingConfigs.trans h.pendingConfigs⟩

theorem KeepsConfigs.foldl {α : Type} (f : Node → α → Node) (hf : ∀ n x, KeepsConfigs n (f n x))
    (l : List α) (n : Node) : KeepsConfigs n (l.foldl f n) := by
  induction l generalizing n with
  | nil => exact .refl n
  | cons x rest ih => exact (hf n x).trans (ih _)

theorem KeepsPeers.refl (n : Node) : KeepsPeers n n := ⟨rfl, rfl⟩

theorem KeepsPeers.trans (h : KeepsPeers a b) (h' : KeepsPeers b c) : KeepsPeers a c :=
  ⟨h'.identity.trans h.identity, h'.topology.trans h.topology⟩

theorem OnlySends.keepsPeers (h : OnlySends a b) : KeepsPeers a b := ⟨h.identity, h.topology⟩

theorem KeepsMemberships.refl (n : Node) : KeepsMemberships n n := ⟨rfl, rfl, rfl⟩

theorem KeepsNetworks.keepsMemberships (h : KeepsNetworks a b) : KeepsMemberships a b :=
  ⟨h.identity, h.networks, h.pendingConfigs⟩

theorem KeepsMemberships.keepsConfigs (h : KeepsMemberships a b) : KeepsConfigs a b :=
  ⟨h.identity, by rw [h.networks], h.pendingConfigs⟩

theorem KeepsNetworks.keepsConfigs (h : KeepsNetworks a b) : KeepsConfigs a b :=
  h.keepsMemberships.keepsConfigs

theorem KeepsBuffers.refl (n : Node) : KeepsBuffers n n := ⟨rfl, rfl, rfl, rfl⟩

theorem KeepsNetworks.refl (n : Node) : KeepsNetworks n n := ⟨.refl n, rfl, rfl⟩

theorem OnlySends.refl (n : Node) : OnlySends n n := ⟨.refl n, rfl⟩

theorem KeepsBuffers.trans (h : KeepsBuffers a b) (h' : KeepsBuffers b c) : KeepsBuffers a c :=
  ⟨h'.identity.trans h.identity, h'.reassembly.trans h.reassembly,
    h'.pendingEncrypted.trans h.pendingEncrypted, h'.frames.trans h.frames⟩

theorem KeepsNetworks.trans (h : KeepsNetworks a b) (h' : KeepsNetworks b c) : KeepsNetworks a c :=
  ⟨h.toKeepsBuffers.trans h'.toKeepsBuffers, h'.networks.trans h.networks,
    h'.pendingConfigs.trans h.pendingConfigs⟩

theorem OnlySends.trans (h : OnlySends a b) (h' : OnlySends b c) : OnlySends a c :=
  ⟨h.toKeepsNetworks.trans h'.toKeepsNetworks, h'.topology.trans h.topology⟩

/-- A fold of operations at a level is at the level. -/
theorem OnlySends.foldl {α : Type} (f : Node → α → Node) (hf : ∀ n x, OnlySends n (f n x))
    (l : List α) (n : Node) : OnlySends n (l.foldl f n) := by
  induction l generalizing n with
  | nil => exact .refl n
  | cons x rest ih => exact (hf n x).trans (ih _)

theorem KeepsNetworks.foldl {α : Type} (f : Node → α → Node) (hf : ∀ n x, KeepsNetworks n (f n x))
    (l : List α) (n : Node) : KeepsNetworks n (l.foldl f n) := by
  induction l generalizing n with
  | nil => exact .refl n
  | cons x rest ih => exact (hf n x).trans (ih _)

theorem KeepsBuffers.foldl {α : Type} (f : Node → α → Node) (hf : ∀ n x, KeepsBuffers n (f n x))
    (l : List α) (n : Node) : KeepsBuffers n (l.foldl f n) := by
  induction l generalizing n with
  | nil => exact .refl n
  | cons x rest ih => exact (hf n x).trans (ih _)

end

namespace Node
variable (pr : Primitives) (n : Node)

/-! ### The small operations -/

theorem onlySends_pushAction {a : NodeAction} (h : a.isForHost = false) : OnlySends n (n.pushAction a) := by
  refine ⟨⟨⟨rfl, rfl, rfl, ?_⟩, rfl, rfl⟩, rfl⟩
  simp [pushAction, h]

theorem onlySends_allocatePacketId : OnlySends n n.allocatePacketId.2 :=
  ⟨⟨⟨rfl, rfl, rfl, rfl⟩, rfl, rfl⟩, rfl⟩

theorem onlySends_sendArmored (secret : Secret) (packet : Bytes) (encrypt : Bool) (address : SocketAddr) :
    OnlySends n (n.sendArmored pr secret packet encrypt address) := by
  unfold sendArmored
  split
  · refine ⟨⟨⟨rfl, rfl, rfl, ?_⟩, rfl, rfl⟩, rfl⟩
    simp [NodeAction.isForHost]
  · exact .refl n

theorem onlySends_sendHello (dest : ByteVec 5) (target : SocketAddr) (now : UInt64) :
    OnlySends n (n.sendHello pr dest target now) := by
  unfold sendHello
  simp only
  split
  · exact onlySends_sendArmored ..
  · exact .refl n

theorem onlySends_sendEncrypted (dest : ByteVec 5) (verb : Verb) (payload : Bytes) (secret : Secret)
    (address : SocketAddr) : OnlySends n (n.sendEncrypted pr dest verb payload secret address) :=
  (onlySends_allocatePacketId n).trans (onlySends_sendArmored pr _ ..)

theorem keepsNetworks_modifyPeer (address : ByteVec 5) (f : Peer → Peer) :
    KeepsNetworks n (n.modifyPeer address f) :=
  ⟨⟨rfl, rfl, rfl, rfl⟩, rfl, rfl⟩

theorem keepsBuffers_modifyNetwork (networkId : UInt64) (f : NetworkMembership → NetworkMembership) :
    KeepsBuffers n (n.modifyNetwork networkId f) :=
  ⟨rfl, rfl, rfl, rfl⟩

/-! ### Before the handlers -/

theorem onlySends_maybeSendRendezvous (source dest : ByteVec 5) (now : UInt64) :
    OnlySends n (n.maybeSendRendezvous pr source dest now) := by
  unfold maybeSendRendezvous
  split
  · exact (onlySends_sendArmored pr n ..).trans (onlySends_sendArmored pr _ ..)
  · exact .refl n

theorem onlySends_handleRelay (data : Bytes) (now : UInt64) :
    OnlySends n (n.handleRelay pr data now) := by
  unfold handleRelay
  split
  · exact .refl n
  · simp only
    split
    · exact (onlySends_pushAction n rfl).trans (onlySends_maybeSendRendezvous pr _ ..)
    · exact onlySends_pushAction n rfl
    · exact .refl n

/-! ### The handlers -/

theorem keepsNetworks_acceptHello (packet : Bytes) (hello : HelloPayload) (secret : Secret)
    (fromAddr : SocketAddr) (now packetId : UInt64) :
    KeepsNetworks n (n.acceptHello pr packet hello secret fromAddr now packetId) := by
  refine KeepsNetworks.trans ?_ (onlySends_sendArmored pr _ ..).toKeepsNetworks
  exact ⟨⟨rfl, rfl, rfl, rfl⟩, rfl, rfl⟩

theorem keepsNetworks_handleHello (packet : Bytes) (fromAddr : SocketAddr) (now packetId : UInt64) :
    KeepsNetworks n (n.handleHello pr packet fromAddr now packetId) := by
  unfold handleHello
  split
  · exact .refl n
  · split
    · exact .refl n
    · split
      · exact .refl n
      · split
        · exact .refl n
        · exact keepsNetworks_acceptHello ..

theorem onlySends_sendProbeHello (peerAddress : ByteVec 5) (target : SocketAddr) (now : UInt64) :
    OnlySends n (n.sendProbeHello pr peerAddress target now) := by
  unfold sendProbeHello
  split
  · exact .refl n
  · exact onlySends_sendHello ..

theorem keepsNetworks_handlePushDirectPaths (packet : Bytes) (fromAddr : SocketAddr) (now : UInt64) :
    KeepsNetworks n (n.handlePushDirectPaths pr packet fromAddr now) := by
  unfold handlePushDirectPaths
  split
  · exact .refl n
  · simp only
    split
    · exact .refl n
    · rename_i peer _
      have hpeer := keepsNetworks_modifyPeer n (PacketHeader.read packet).source
        fun _ => peer.addPath fromAddr (arrivedDirectly packet) now
      refine hpeer.trans (OnlySends.toKeepsNetworks ?_)
      exact .foldl _ (fun m target => onlySends_sendProbeHello pr m _ target now) _ _

theorem onlySends_handleRendezvous (packet : Bytes) (now : UInt64) :
    OnlySends n (n.handleRendezvous pr packet now) := by
  unfold handleRendezvous
  split
  · exact .refl n
  · split
    · exact .refl n
    · exact onlySends_sendProbeHello ..

theorem onlySends_answerWhois {n n' : Node} {dest : ByteVec 5} {inRePacketId : UInt64}
    {known : List Identity} {fromAddr : SocketAddr} {now : UInt64}
    (h : n.answerWhois pr dest inRePacketId known fromAddr now = .ok n') : OnlySends n n' := by
  unfold answerWhois at h
  split at h
  · cases h
    exact .refl n
  · split at h
    · cases h
      exact .refl n
    · simp only at h
      split at h
      · cases h
      · cases h
        exact onlySends_sendArmored ..

theorem onlySends_handleWhois {n n' : Node} {packet : Bytes} {fromAddr : SocketAddr} {now : UInt64}
    (h : n.handleWhois pr packet fromAddr now = .ok n') : OnlySends n n' := by
  unfold handleWhois at h
  split at h
  · cases h
    exact .refl n
  · simp only at h
    split at h
    · cases h
    · rename_i answered hanswer
      cases h
      refine (onlySends_answerWhois pr hanswer).trans ?_
      split
      · exact .refl _
      · exact onlySends_pushAction _ rfl

theorem onlySends_handleEcho {n n' : Node} {packet : Bytes} {fromAddr : SocketAddr} {packetId : UInt64}
    (h : n.handleEcho pr packet fromAddr packetId = .ok n') : OnlySends n n' := by
  unfold handleEcho at h
  simp only at h
  split at h
  · cases h
    exact .refl n
  · split at h
    · cases h
      exact .refl n
    · split at h
      · cases h
      · cases h
        exact (onlySends_allocatePacketId n).trans (onlySends_sendArmored pr _ ..)

theorem keepsBuffers_applyReceivedNetworkConfig (nc : NetworkConfigPayload) :
    KeepsBuffers n (n.applyReceivedNetworkConfig nc) := by
  unfold applyReceivedNetworkConfig
  split
  · exact .refl n
  · simp only
    split
    · exact ⟨rfl, rfl, rfl, rfl⟩
    · exact ⟨rfl, rfl, rfl, by simp [pushAction, modifyNetwork, applyNetworkConfig, NodeAction.isForHost]⟩

theorem keepsBuffers_handleNetworkConfig (packet : Bytes) : KeepsBuffers n (n.handleNetworkConfig packet) := by
  unfold handleNetworkConfig
  split
  · exact .refl n
  · exact keepsBuffers_applyReceivedNetworkConfig ..

theorem keepsBuffers_handleNetworkCredentials (packet : Bytes) :
    KeepsBuffers n (n.handleNetworkCredentials packet) := by
  unfold handleNetworkCredentials
  split
  · exact .refl n
  · exact keepsBuffers_modifyNetwork ..

theorem keepsNetworks_handleMulticastGatherOk (packetId : UInt64) (data : Bytes) (now : UInt64) :
    KeepsNetworks n (n.handleMulticastGatherOk packetId data now) := by
  unfold handleMulticastGatherOk
  split
  · exact ⟨⟨rfl, rfl, rfl, rfl⟩, rfl, rfl⟩
  · exact .refl n

theorem keepsNetworks_handleMulticastLike (sender : ByteVec 5) (payload : Bytes) (now : UInt64) :
    KeepsNetworks n (Vl2.handleMulticastLike n sender payload now) := by
  unfold Vl2.handleMulticastLike
  split
  · exact .refl n
  · exact ⟨⟨rfl, rfl, rfl, rfl⟩, rfl, rfl⟩

theorem onlySends_handleMulticastGather (sender : ByteVec 5) (payload : Bytes) (fromAddr : SocketAddr)
    (inRePacketId : UInt64) :
    OnlySends n (Vl2.handleMulticastGather pr n sender payload fromAddr inRePacketId) := by
  unfold Vl2.handleMulticastGather
  split
  · exact .refl n
  · simp only
    split
    · exact .refl n
    · exact onlySends_sendEncrypted ..

theorem onlySends_handleReport (verb : Verb) (source : ByteVec 5) (payload : Bytes)
    (fromAddr : SocketAddr) (packetId : UInt64) :
    OnlySends n (n.handleReport verb source payload fromAddr packetId) := by
  unfold handleReport
  split <;> first
    | exact .refl n
    | (split <;> first | exact .refl n | exact onlySends_pushAction n rfl)

theorem keepsNetworks_learnIdentity (identity : Identity) (now : UInt64) :
    KeepsNetworks n (n.learnIdentity pr identity now) := by
  unfold learnIdentity
  simp only
  split
  · refine KeepsNetworks.trans ?_ (onlySends_sendHello pr _ ..).toKeepsNetworks
    exact ⟨⟨rfl, rfl, rfl, rfl⟩, rfl, rfl⟩
  · exact ⟨⟨rfl, rfl, rfl, rfl⟩, rfl, rfl⟩

/-! ### What does not touch the peers -/

theorem keepsPeers_deliverFrame (sender : ByteVec 5) (networkId : UInt64) (srcMac destMac : Mac)
    (ethertype : UInt16) (payload : Bytes) :
    KeepsPeers n (Vl2.deliverFrame pr n sender networkId srcMac destMac ethertype payload) := by
  unfold Vl2.deliverFrame
  split
  · exact ⟨rfl, rfl⟩
  · exact .refl n

theorem keepsPeers_applyReceivedNetworkConfig (nc : NetworkConfigPayload) :
    KeepsPeers n (n.applyReceivedNetworkConfig nc) := by
  unfold applyReceivedNetworkConfig
  split
  · exact .refl n
  · simp only
    split
    · exact ⟨rfl, rfl⟩
    · exact ⟨rfl, rfl⟩

theorem keepsPeers_handleOkGeneric (ok : OkPayload) (data : Bytes) (now : UInt64) :
    KeepsPeers n (n.handleOkGeneric ok data now) := by
  unfold handleOkGeneric
  split
  · unfold handleMulticastGatherOk
    split
    · exact ⟨rfl, rfl⟩
    · exact .refl n
  · split
    · exact keepsPeers_applyReceivedNetworkConfig ..
    · exact .refl n

/-- Only HELLO and PUSH_DIRECT_PATHS touch the peers. -/
theorem keepsPeers_handleVerb {verb : Verb} {d : Dispatch} {fromAddr : SocketAddr} {now : UInt64} {n' : Node}
    (h : handleVerb pr verb d fromAddr now = .ok n') (hhello : verb ≠ .hello)
    (hpush : verb ≠ .pushDirectPaths) : KeepsPeers d.node n' := by
  unfold handleVerb at h
  simp only at h
  split at h
  case h_1 => exact absurd rfl hhello
  case h_2 => exact (onlySends_handleWhois pr h).keepsPeers
  case h_4 => exact (onlySends_handleEcho pr h).keepsPeers
  case h_5 => exact absurd rfl hpush
  all_goals obtain rfl := Except.ok.inj h
  · exact (onlySends_handleRendezvous ..).keepsPeers
  · unfold handleNetworkConfig
    split
    · exact .refl _
    · exact keepsPeers_applyReceivedNetworkConfig ..
  · unfold handleNetworkCredentials
    split
    · exact .refl _
    · exact ⟨rfl, rfl⟩
  · unfold Vl2.handleFrame
    split
    · exact .refl _
    · exact keepsPeers_deliverFrame ..
  · unfold Vl2.handleExtFrame
    split
    · exact .refl _
    · exact keepsPeers_deliverFrame ..
  · unfold Vl2.handleMulticastLike
    split
    · exact .refl _
    · exact ⟨rfl, rfl⟩
  · exact (onlySends_handleMulticastGather ..).keepsPeers
  · unfold Vl2.handleMulticastFrame
    split
    · exact .refl _
    · exact keepsPeers_deliverFrame ..
  · exact (onlySends_handleReport ..).keepsPeers

/-! ### What does not touch the memberships -/

theorem keepsMemberships_deliverFrame (sender : ByteVec 5) (networkId : UInt64) (srcMac destMac : Mac)
    (ethertype : UInt16) (payload : Bytes) :
    KeepsMemberships n (Vl2.deliverFrame pr n sender networkId srcMac destMac ethertype payload) := by
  unfold Vl2.deliverFrame
  split
  · exact ⟨rfl, rfl, rfl⟩
  · exact .refl n

/-- Only NETWORK_CONFIG and NETWORK_CREDENTIALS touch the memberships. -/
theorem keepsMemberships_handleVerb {verb : Verb} {d : Dispatch} {fromAddr : SocketAddr} {now : UInt64}
    {n' : Node} (h : handleVerb pr verb d fromAddr now = .ok n') (hconfig : verb ≠ .networkConfig)
    (hcreds : verb ≠ .networkCredentials) : KeepsMemberships d.node n' := by
  unfold handleVerb at h
  simp only at h
  split at h
  case h_2 => exact (onlySends_handleWhois pr h).keepsMemberships
  case h_4 => exact (onlySends_handleEcho pr h).keepsMemberships
  case h_6 => exact absurd rfl hconfig
  case h_7 => exact absurd rfl hcreds
  all_goals obtain rfl := Except.ok.inj h
  · exact (keepsNetworks_handleHello ..).keepsMemberships
  · exact (onlySends_handleRendezvous ..).keepsMemberships
  · exact (keepsNetworks_handlePushDirectPaths ..).keepsMemberships
  · unfold Vl2.handleFrame
    split
    · exact .refl _
    · exact keepsMemberships_deliverFrame ..
  · unfold Vl2.handleExtFrame
    split
    · exact .refl _
    · exact keepsMemberships_deliverFrame ..
  · exact (keepsNetworks_handleMulticastLike ..).keepsMemberships
  · exact (onlySends_handleMulticastGather ..).keepsMemberships
  · unfold Vl2.handleMulticastFrame
    split
    · exact .refl _
    · exact keepsMemberships_deliverFrame ..
  · exact (onlySends_handleReport ..).keepsMemberships

/-! ### What delivers no frame -/

/-- Only the three verbs of frames deliver one; nothing but the reassembly of fragments and
the waiting of packets touches what is held back. -/
theorem keepsBuffers_handleVerb {verb : Verb} {d : Dispatch} {fromAddr : SocketAddr} {now : UInt64}
    {n' : Node} (h : handleVerb pr verb d fromAddr now = .ok n') (hframe : verb ≠ .frame)
    (hext : verb ≠ .extFrame) (hmulticast : verb ≠ .multicastFrame) : KeepsBuffers d.node n' := by
  unfold handleVerb at h
  simp only at h
  split at h
  case h_2 => exact (onlySends_handleWhois pr h).toKeepsBuffers
  case h_4 => exact (onlySends_handleEcho pr h).toKeepsBuffers
  case h_8 => exact absurd rfl hframe
  case h_9 => exact absurd rfl hext
  case h_12 => exact absurd rfl hmulticast
  all_goals obtain rfl := Except.ok.inj h
  · exact (keepsNetworks_handleHello ..).toKeepsBuffers
  · exact (onlySends_handleRendezvous ..).toKeepsBuffers
  · exact (keepsNetworks_handlePushDirectPaths ..).toKeepsBuffers
  · exact keepsBuffers_handleNetworkConfig ..
  · exact keepsBuffers_handleNetworkCredentials ..
  · exact (keepsNetworks_handleMulticastLike ..).toKeepsBuffers
  · exact (onlySends_handleMulticastGather ..).toKeepsBuffers
  · exact (onlySends_handleReport ..).toKeepsBuffers

/-! ### The timer -/

/-- Setting timers of a membership keeps what the configuration says. -/
theorem keepsConfigs_modifyNetwork (networkId : UInt64) {f : NetworkMembership → NetworkMembership}
    (hf : ∀ net, (f net).config = net.config) : KeepsConfigs n (n.modifyNetwork networkId f) :=
  ⟨rfl, map_modifyFirst _ fun net _ => hf net, rfl⟩

theorem keepsNetworks_greet (address : ByteVec 5) (target : SocketAddr) (now : UInt64)
    (remember : Peer → Peer) : KeepsNetworks n (n.greet pr address target now remember) := by
  unfold greet
  simp only
  split
  · exact .refl n
  · split
    · exact (onlySends_sendArmored pr n ..).toKeepsNetworks.trans (keepsNetworks_modifyPeer _ ..)
    · exact .refl n

theorem keepsNetworks_greetAll (targets : List (ByteVec 5 × SocketAddr)) (now packetId : UInt64) :
    KeepsNetworks n (n.greetAll pr targets now packetId) :=
  .foldl _ (fun m _ => keepsNetworks_greet pr m ..) _ _

theorem keepsNetworks_pushDirectPaths (now : UInt64) : KeepsNetworks n (n.pushDirectPaths pr now) := by
  unfold pushDirectPaths
  split
  · exact .refl n
  · refine .foldl _ (fun m _ => ?_) _ _
    unfold pushDirectPathsTo
    split
    · exact .refl m
    · exact (onlySends_sendEncrypted pr m ..).toKeepsNetworks.trans (keepsNetworks_modifyPeer _ ..)

theorem keepsNetworks_keepAlive (now : UInt64) : KeepsNetworks n (n.keepAlive pr now) :=
  (((keepsNetworks_greetAll pr n ..).trans (keepsNetworks_greetAll pr _ ..)).trans
    (keepsNetworks_pushDirectPaths pr _ now)).trans (keepsNetworks_greetAll pr _ ..)

theorem keepsConfigs_requestController (controller : ByteVec 5) (now : UInt64) :
    KeepsConfigs n (n.requestController controller now) := by
  unfold requestController
  split
  · exact ⟨rfl, rfl, rfl⟩
  · exact .refl n

theorem keepsConfigs_requestConfig (now networkId : UInt64) :
    KeepsConfigs n (requestConfig pr now n networkId) := by
  unfold requestConfig
  simp only
  split
  · exact .refl n
  · split
    · exact keepsConfigs_requestController ..
    · split
      · exact .refl n
      · refine KeepsConfigs.trans ?_ (keepsConfigs_modifyNetwork _ _ ?_)
        · exact (onlySends_sendEncrypted pr n ..).keepsConfigs
        · exact fun _ => rfl

theorem keepsConfigs_queueConfigRequests (now : UInt64) :
    KeepsConfigs n (n.queueConfigRequests pr now) := by
  unfold queueConfigRequests
  refine KeepsConfigs.trans ?_ (.foldl _ (fun m id => keepsConfigs_requestConfig pr m now id) _ _)
  refine ⟨rfl, ?_, rfl⟩
  simp only [List.map_map]
  apply List.map_congr_left
  intro net _
  simp only [Function.comp_apply]
  split <;> rfl

/-- A fold over what is under way keeps the configurations if each turn does. -/
theorem keepsConfigs_foldl_fst {α : Type} (f : Multicasting → α → Multicasting)
    (hf : ∀ m x, KeepsConfigs m.1 (f m x).1) (l : List α) (m : Multicasting) :
    KeepsConfigs m.1 (l.foldl f m).1 := by
  induction l generalizing m with
  | nil => exact .refl _
  | cons x rest ih => exact (hf m x).trans (ih _)

theorem keepsConfigs_toPeer (now : UInt64) {send : Node → ByteVec 5 → Secret → SocketAddr → Node}
    (hsend : ∀ m address secret target, KeepsConfigs m (send m address secret target))
    (m : Multicasting) (address : ByteVec 5) : KeepsConfigs m.1 (toPeer now send m address).1 := by
  unfold toPeer
  split
  · exact hsend ..
  · exact .refl _

theorem keepsConfigs_sendLikes (now : UInt64) (m : Multicasting) (net : NetworkMembership) :
    KeepsConfigs m.1 (sendLikes pr now m net).1 := by
  unfold sendLikes
  refine KeepsConfigs.trans ?_ (keepsConfigs_foldl_fst _ (keepsConfigs_toPeer now ?_) _ _)
  · refine keepsConfigs_modifyNetwork _ _ ?_
    exact fun _ => rfl
  · exact fun _ _ _ _ => (onlySends_sendEncrypted pr _ ..).keepsConfigs

/-- Beyond the packet that is sent, the question is remembered. -/
theorem sendGather_eq (networkId now : UInt64) (address : ByteVec 5) (secret : Secret) (target : SocketAddr)
    (group : MulticastGroup) :
    ∃ asked, sendGather pr networkId now address secret target n group =
      { n.sendEncrypted pr address .multicastGather (MulticastGatherPayload.serialize
          { networkId, flags := 0, mac := group.mac, adi := group.adi, gatherLimit := 64, com := none }) secret target with
        pendingMulticastGathers := asked } := ⟨_, rfl⟩

theorem keepsConfigs_sendGather (networkId now : UInt64) (address : ByteVec 5) (secret : Secret)
    (target : SocketAddr) (group : MulticastGroup) :
    KeepsConfigs n (sendGather pr networkId now address secret target n group) := by
  obtain ⟨asked, hgather⟩ := sendGather_eq pr n networkId now address secret target group
  rw [hgather]
  exact (onlySends_sendEncrypted pr n ..).keepsConfigs.trans ⟨rfl, rfl, rfl⟩

theorem keepsConfigs_sendGathers (now : UInt64) (m : Multicasting)
    (net : NetworkMembership × List MulticastGroup) : KeepsConfigs m.1 (sendGathers pr now m net).1 := by
  unfold sendGathers
  refine KeepsConfigs.trans ?_ (keepsConfigs_foldl_fst _ (keepsConfigs_toPeer now ?_) _ _)
  · refine keepsConfigs_modifyNetwork _ _ ?_
    exact fun _ => rfl
  · exact fun _ _ _ _ => .foldl _ (fun _ _ => keepsConfigs_sendGather pr _ ..) _ _

theorem keepsConfigs_multicastRound (now : UInt64) : KeepsConfigs n (n.multicastRound pr now) := by
  unfold multicastRound
  simp only
  set likes := List.foldl (sendLikes pr now) (n, []) _
  set done := List.foldl (sendGathers pr now) likes _
  have hlikes : KeepsConfigs n likes.1 := keepsConfigs_foldl_fst _ (keepsConfigs_sendLikes pr now) _ (n, [])
  have hdone : KeepsConfigs n done.1 :=
    hlikes.trans (keepsConfigs_foldl_fst _ (keepsConfigs_sendGathers pr now) _ likes)
  split
  · exact hdone
  · exact hdone.trans (onlySends_pushAction _ rfl).keepsConfigs

theorem keepsConfigs_greetings (now : UInt64) : KeepsConfigs n (n.greetings pr now) := by
  have hexpire : KeepsConfigs n ((n.expire now).markStalePeers now) := ⟨rfl, rfl, rfl⟩
  have halive := hexpire.trans (keepsNetworks_keepAlive pr _ now).keepsConfigs
  exact halive.trans (keepsNetworks_greetAll pr _ _ now now).keepsConfigs

theorem keepsConfigs_takeActions {n n' : Node} (h : KeepsConfigs n n') : KeepsConfigs n n'.takeActions.1 :=
  ⟨h.identity, h.configs, h.pendingConfigs⟩

theorem keepsConfigs_tick (now : UInt64) : KeepsConfigs n (n.tick pr now).1 :=
  keepsConfigs_takeActions (((keepsConfigs_greetings pr n now).trans
    (keepsConfigs_queueConfigRequests pr _ now)).trans (keepsConfigs_multicastRound pr _ now))

theorem keepsConfigs_bootstrap (now : UInt64) : KeepsConfigs n (n.bootstrap pr now).1 := by
  have hclear : KeepsConfigs n { n with actions := [] } := ⟨rfl, rfl, rfl⟩
  have hgreet := KeepsNetworks.foldl (firstHello pr now)
    (fun m t => keepsNetworks_greet pr m t.1 t.2 now (waiting now)) (n.rootTargets false)
  exact keepsConfigs_takeActions (hclear.trans (hgreet _).keepsConfigs)

theorem keepsConfigs_flushConfigRequests (now : UInt64) :
    KeepsConfigs n (n.flushConfigRequests pr now).1 := by
  have hclear : KeepsConfigs n { n with actions := [] } := ⟨rfl, rfl, rfl⟩
  have hqueue := hclear.trans (keepsConfigs_queueConfigRequests pr _ now)
  exact ⟨hqueue.identity, hqueue.configs, hqueue.pendingConfigs⟩

/-! ### Frames and questions of the host -/

theorem onlySends_sendWhois (addresses : List (ByteVec 5)) (now : UInt64) :
    OnlySends n (n.sendWhois pr addresses now).1 := by
  unfold sendWhois
  split
  · exact .refl n
  · split
    · exact .refl n
    · rename_i root secret target _ _ packet _
      have hsend := onlySends_sendArmored pr { n with actions := [] } secret packet true target
      exact ⟨⟨⟨hsend.identity, hsend.reassembly, hsend.pendingEncrypted, rfl⟩, hsend.networks,
        hsend.pendingConfigs⟩, hsend.topology⟩

theorem onlySends_sendToMember (network : NetworkMembership) (member : NetworkMember) (ethertype : UInt16)
    (payload : Bytes) (ourZtAddress : ByteVec 5) (now : UInt64) :
    OnlySends n (Vl2.sendToMember pr n network member ethertype payload ourZtAddress now).1 := by
  unfold Vl2.sendToMember
  simp only
  split
  · exact .refl n
  · split
    · exact onlySends_allocatePacketId n
    · exact ⟨⟨⟨rfl, rfl, rfl, rfl⟩, rfl, rfl⟩, rfl⟩

/-- A frame of the host touches neither the peers nor what the configurations say. -/
theorem keeps_unicastOutbound (network : NetworkMembership) (member : Option NetworkMember) (unknown : Bool)
    (ethertype : UInt16) (payload : Bytes) (ourZtAddress : ByteVec 5) (now : UInt64) :
    let n' := (Vl2.unicastOutbound pr n network member unknown ethertype payload ourZtAddress now).1
    KeepsPeers n n' ∧ KeepsConfigs n n' := by
  unfold Vl2.unicastOutbound
  simp only
  split
  · have hsend := onlySends_sendToMember pr n network
    exact ⟨(hsend ..).keepsPeers, (hsend ..).keepsConfigs⟩
  · split
    · exact ⟨⟨rfl, rfl⟩, keepsConfigs_modifyNetwork n _ fun _ => rfl⟩
    · exact ⟨.refl n, .refl n⟩

theorem keeps_processOutboundFrame {n n' : Node} {networkId : UInt64} {ethertype : UInt16} {payload : Bytes}
    {ourZtAddress : ByteVec 5} {now : UInt64} {actions : List NodeAction}
    (h : Vl2.processOutboundFrame pr n networkId ethertype payload ourZtAddress now = .ok (n', actions)) :
    KeepsPeers n n' ∧ KeepsConfigs n n' := by
  unfold Vl2.processOutboundFrame at h
  split at h
  · cases h
    exact ⟨.refl n, .refl n⟩
  · split at h
    · obtain ⟨sent, -, heq⟩ := bind_eq_ok h
      cases heq
      exact ⟨.refl n, .refl n⟩
    · split at h
      · split at h
        · cases h
          exact ⟨.refl n, .refl n⟩
        · obtain ⟨rfl, -⟩ := Prod.mk.inj (Except.ok.inj h)
          exact keeps_unicastOutbound ..
      · split at h
        · split at h
          · cases h
            exact ⟨.refl n, .refl n⟩
          · obtain ⟨rfl, -⟩ := Prod.mk.inj (Except.ok.inj h)
            exact keeps_unicastOutbound ..
        · cases h
          exact ⟨.refl n, .refl n⟩

end Node

end ManyTier
