import ManyTier.Node.Peers

/-! The keys of a session.

A session starts with a HELLO or with the answer to one. Its keys are those agreed with
the identity held for the peer (`SessionsAgreed`), and every operation of a node keeps
them so, as long as no HELLO is accepted for a known address that carries another key
than the one held. -/
namespace ManyTier

/-- The keys of a session between our secret and an identity. -/
def sessionKeys (pr : Primitives) (ours : SecretKey) (theirs : Identity) : Secret × ByteVec 32 × ByteVec 32 :=
  let secret := KeyAgreement.keyAgree pr ours.dh theirs.publicKey.dh
  (secret, ByteVec.ofBytes 32 (Kbkdf.deriveK0 pr secret).toBytes,
    ByteVec.ofBytes 32 (Kbkdf.deriveK1 pr secret).toBytes)

namespace PeerState

/-- The keys of an active session. -/
def keys : PeerState → Option (Secret × ByteVec 32 × ByteVec 32)
  | .active secret k0 k1 _ _ _ => some (secret, k0, k1)
  | _ => none

end PeerState

namespace Peer
variable (pr : Primitives) (us : Identity)

/-- The keys of the session, if there is one, are those agreed with the identity. -/
def Agreed (p : Peer) : Prop :=
  ∀ keys, p.state.keys = some keys → ∃ ours, us.secret = some ours ∧ keys = sessionKeys pr ours p.identity

theorem sharedSecret_eq (p : Peer) : p.sharedSecret = p.state.keys.map Prod.fst := by
  unfold sharedSecret
  cases p.state <;> rfl

theorem aesKeys_eq (p : Peer) : p.aesKeys = p.state.keys.map Prod.snd := by
  unfold aesKeys
  cases p.state <;> rfl

variable {pr us} {p q : Peer}

theorem Agreed.of_none (h : p.state.keys = none) : p.Agreed pr us := by
  intro keys hkeys
  rw [h] at hkeys
  cases hkeys

theorem Agreed.congr (hp : p.Agreed pr us) (hid : q.identity = p.identity)
    (hkeys : q.state.keys = p.state.keys) : q.Agreed pr us := by
  intro keys h
  rw [hkeys] at h
  rw [hid]
  exact hp keys h

/-- Hearing from a peer is not a new session. -/
theorem heardFrom_eq (p : Peer) (relayed : Bool) (fromAddr : SocketAddr) (now : UInt64) :
    ∃ paths state, Node.heardFrom relayed fromAddr now p = { p with paths, state } ∧ state.keys = p.state.keys := by
  have hpath : ∃ paths, (if relayed then p.addPath fromAddr false now else p.promotePath fromAddr now) =
      { p with paths } := by
    split
    · exact p.addPath_eq fromAddr now false
    · exact p.promotePath_eq fromAddr now
  obtain ⟨paths, hpath⟩ := hpath
  unfold Node.heardFrom
  rw [hpath]
  simp only
  split
  · rename_i hstate
    refine ⟨paths, _, rfl, ?_⟩
    rw [hstate]
    rfl
  · exact ⟨paths, p.state, rfl, rfl⟩

theorem identity_heardFrom (p : Peer) (relayed : Bool) (fromAddr : SocketAddr) (now : UInt64) :
    (Node.heardFrom relayed fromAddr now p).identity = p.identity := by
  obtain ⟨paths, state, heq, -⟩ := p.heardFrom_eq relayed fromAddr now
  rw [heq]

theorem keys_heardFrom (p : Peer) (relayed : Bool) (fromAddr : SocketAddr) (now : UInt64) :
    (Node.heardFrom relayed fromAddr now p).state.keys = p.state.keys := by
  obtain ⟨paths, state, heq, hkeys⟩ := p.heardFrom_eq relayed fromAddr now
  rw [heq]
  exact hkeys

theorem identity_addPath (p : Peer) (addr : SocketAddr) (isDirect : Bool) (now : UInt64) :
    (p.addPath addr isDirect now).identity = p.identity := by
  obtain ⟨paths, heq⟩ := p.addPath_eq addr now isDirect
  rw [heq]

/-- Paths are not part of a session. -/
theorem Agreed.addPath (hp : p.Agreed pr us) (addr : SocketAddr) (isDirect : Bool) (now : UInt64) :
    (p.addPath addr isDirect now).Agreed pr us := by
  obtain ⟨paths, heq⟩ := p.addPath_eq addr now isDirect
  rw [heq]
  exact hp.congr rfl rfl

theorem Agreed.heardFrom (hp : p.Agreed pr us) (relayed : Bool) (fromAddr : SocketAddr) (now : UInt64) :
    (Node.heardFrom relayed fromAddr now p).Agreed pr us :=
  hp.congr (identity_heardFrom ..) (keys_heardFrom ..)

theorem Agreed.onHelloSent (hp : p.Agreed pr us) (packetId now : UInt64) :
    (p.onHelloSent packetId now).Agreed pr us := by
  unfold Peer.onHelloSent
  split
  · rename_i hstate
    exact hp.congr rfl (by simp [hstate, PeerState.keys])
  all_goals exact .of_none rfl

theorem Agreed.greeted (hp : p.Agreed pr us) (packetId : UInt64) (target : SocketAddr) (now : UInt64) :
    (Node.greeted packetId target now p).Agreed pr us := by
  have hsent := hp.onHelloSent packetId now
  exact hsent.congr rfl rfl

theorem Agreed.markStale (hp : p.Agreed pr us) (now : UInt64) : (p.markStale now).Agreed pr us := by
  unfold Peer.markStale
  split
  · exact .of_none rfl
  · exact hp

theorem Agreed.establishSession {ours : SecretKey} (hours : us.secret = some ours) (latencyMs : UInt32)
    (now : UInt64) : (p.establishSession pr ours.dh latencyMs now).Agreed pr us := by
  intro keys hkeys
  refine ⟨ours, hours, ?_⟩
  cases hkeys
  rfl

end Peer

namespace Topology

theorem foldl_paths {α : Type} {f : Peer → α → Peer} (hf : ∀ p x, ∃ paths, f p x = { p with paths }) (l : List α)
    (p : Peer) : ∃ paths, l.foldl f p = { p with paths } := by
  induction l generalizing p with
  | nil => exact ⟨p.paths, rfl⟩
  | cons x rest ih =>
    obtain ⟨first, hfirst⟩ := hf p x
    obtain ⟨paths, hpaths⟩ := ih (f p x)
    refine ⟨paths, ?_⟩
    rw [List.foldl_cons, hpaths, hfirst]

/-- A root's entry differs from a new one of a root in its paths only. -/
theorem rootPeer_eq (root : WorldRoot) :
    ∃ paths, rootPeer root = { Peer.new { root.identity with secret := none } true with paths } := by
  unfold rootPeer
  apply foldl_paths
  intro p endpoint
  split
  · exact p.addPath_eq ..
  · exact ⟨p.paths, rfl⟩

end Topology

/-- Noting where a peer was heard from changes no identity. -/
theorem Node.identity_noteSource (n : Node) (source : ByteVec 5) (fromAddr : SocketAddr) (now : UInt64) (a : ByteVec 5) :
    ((n.noteSource source fromAddr now).topology.getPeer a).map Peer.identity =
      (n.topology.getPeer a).map Peer.identity := by
  show ((n.topology.modifyPeer _ _).getPeer a).map Peer.identity = _
  rw [Topology.getPeer_modifyPeer]
  split
  · rw [Option.map_map]
    exact congrArg (Option.map · _) (funext fun peer => Peer.identity_heardFrom ..)
  · rfl

/-- Noting where a peer was heard from says nothing of certificates. -/
theorem Node.hasPeerCom_noteSource (pr : Primitives) (n : Node) (source : ByteVec 5) (fromAddr : SocketAddr)
    (now networkId : UInt64) (sender : ByteVec 5) :
    Vl2.hasPeerCom pr (n.noteSource source fromAddr now) networkId sender = Vl2.hasPeerCom pr n networkId sender := by
  have hbind : ∀ n : Node, n.controllerVerifyingKey pr networkId =
      ((n.topology.getPeer (controllerAddressFromNetworkId networkId)).map Peer.identity).bind fun identity =>
        if pr.ed25519Point identity.publicKey.signing then some identity.publicKey.signing else none := by
    intro n
    rw [Node.controllerVerifyingKey, Option.bind_map]
    rfl
  have hnetworks : (n.noteSource source fromAddr now).findNetwork networkId = n.findNetwork networkId := rfl
  unfold Vl2.hasPeerCom
  rw [hnetworks, hbind, hbind, Node.identity_noteSource]

/-- Every session has the keys agreed with the identity held for the peer. -/
def SessionsAgreed (pr : Primitives) (n : Node) : Prop :=
  ∀ a peer, n.topology.getPeer a = some peer → peer.Agreed pr n.identity

namespace SessionsAgreed
variable {pr : Primitives} {n n' : Node}

theorem peersHold (h : SessionsAgreed pr n) :
    PeersHold n.identity n.topology.worlds (fun _ p => p.Agreed pr n.identity) n := ⟨rfl, rfl, h⟩

theorem of_peersHold {us : Identity} {worlds : Option World × List World}
    (h : PeersHold us worlds (fun _ p => p.Agreed pr us) n) : SessionsAgreed pr n := by
  intro a peer hpeer
  rw [h.identity]
  exact h.each a peer hpeer

/-- A HELLO of the timer leaves the keys of a session, and a stale session has none. -/
theorem timerKeeps (us : Identity) : TimerKeeps fun _ p => p.Agreed pr us where
  greeted := fun _ _ packetId target now hp => hp.greeted packetId target now
  waiting := fun _ _ _ _ => .of_none rfl
  pushed := fun _ _ _ hp => hp.congr rfl rfl
  stale := fun _ _ now hp => hp.markStale now

theorem congr (h : SessionsAgreed pr n) (hid : n'.identity = n.identity)
    (hpeers : n'.topology.peers = n.topology.peers) : SessionsAgreed pr n' := by
  intro a peer hpeer
  rw [Topology.getPeer, hpeers] at hpeer
  rw [hid]
  exact h a peer hpeer

theorem keepsPeers (h : SessionsAgreed pr n) (hk : KeepsPeers n n') : SessionsAgreed pr n' :=
  .of_peersHold (h.peersHold.keepsPeers hk)

theorem onlySends (h : SessionsAgreed pr n) (hs : OnlySends n n') : SessionsAgreed pr n' :=
  h.keepsPeers hs.keepsPeers

theorem modifyPeer (h : SessionsAgreed pr n) (address : ByteVec 5) {f : Peer → Peer}
    (hf : ∀ p, n.topology.getPeer address = some p → p.Agreed pr n.identity → (f p).Agreed pr n.identity) :
    SessionsAgreed pr (n.modifyPeer address f) :=
  .of_peersHold (h.peersHold.modifyPeer address hf)

theorem addPeer (h : SessionsAgreed pr n) (identity : Identity) :
    SessionsAgreed pr { n with topology := n.topology.addPeer identity } :=
  .of_peersHold (h.peersHold.addPeer identity (.of_none rfl))

theorem noteSource (h : SessionsAgreed pr n) (source : ByteVec 5) (fromAddr : SocketAddr) (now : UInt64) :
    SessionsAgreed pr (n.noteSource source fromAddr now) :=
  h.modifyPeer source fun _ _ hp => hp.heardFrom _ _ _

theorem handleHello (h : SessionsAgreed pr n) (packet : Bytes) (fromAddr : SocketAddr) (now packetId : UInt64)
    (hheld : ∀ hello rest, HelloPayload.deserialize (packet.drop Constants.minPacketLength) = .ok (hello, rest) →
      (n.helloOpens pr packet hello).isSome → Node.protoVersionMin ≤ hello.protocolVersion →
      (n.identityAlreadyValidated hello.identity || hello.identity.validateAddress pr) = true → ∀ peer,
        n.topology.getPeer hello.identity.address.bytes = some peer →
          peer.identity.publicKey.dh = hello.identity.publicKey.dh) :
    SessionsAgreed pr (n.handleHello pr packet fromAddr now packetId) := by
  unfold Node.handleHello
  split
  · exact h
  · rename_i hello rest hread
    split
    · exact h
    · rename_i secret hopens
      split
      · exact h
      · rename_i hversion
        split
        · exact h
        · rename_i hinvalid
          have hvalid : (n.identityAlreadyValidated hello.identity || hello.identity.validateAddress pr) = true := by
            rw [← Bool.not_eq_false, Bool.or_eq_false_iff]
            simpa using hinvalid
          obtain ⟨ours, hours, hsecret⟩ := Option.bind_eq_some_iff.mp hopens
          have hagreed : secret = KeyAgreement.keyAgree pr ours.dh hello.identity.publicKey.dh := by
            simp only at hsecret
            split at hsecret
            · exact (Option.some.inj hsecret).symm
            · cases hsecret
          refine SessionsAgreed.onlySends ?_ (Node.onlySends_sendArmored pr _ ..)
          refine (h.addPeer { hello.identity with secret := none }).modifyPeer _ ?_
          intro p hp _ keys hkeys
          refine ⟨ours, hours, ?_⟩
          have hdh : p.identity.publicKey.dh = hello.identity.publicKey.dh := by
            have hp' : (n.topology.addPeer { hello.identity with secret := none }).getPeer
                hello.identity.address.bytes = some p := hp
            rw [Topology.getPeer_addPeer] at hp'
            split at hp'
            · cases hp'
              rfl
            · exact hheld hello rest hread (by simp [hopens]) (UInt8.not_lt.mp hversion) hvalid p hp'
          cases hkeys
          rw [hagreed, sessionKeys]
          simp only [Peer.identity_addPath, hdh]

theorem handleOkHello (h : SessionsAgreed pr n) (packet : Bytes) (timestampEcho : UInt64)
    (fromAddr : SocketAddr) (now : UInt64) :
    SessionsAgreed pr (n.handleOkHello pr packet timestampEcho fromAddr now) := by
  refine h.modifyPeer _ ?_
  intro p _ hp
  refine Peer.Agreed.congr (Peer.Agreed.addPath ?_ fromAddr (Node.arrivedDirectly packet) now) rfl rfl
  split
  · rename_i ours hours
    exact .establishSession hours _ _
  · exact hp

theorem handlePushDirectPaths (h : SessionsAgreed pr n) (packet : Bytes) (fromAddr : SocketAddr) (now : UInt64) :
    SessionsAgreed pr (n.handlePushDirectPaths pr packet fromAddr now) := by
  unfold Node.handlePushDirectPaths
  split
  · exact h
  · simp only
    split
    · exact h
    · rename_i peer hpeer
      have hpaths := h.modifyPeer (PacketHeader.read packet).source (f := fun _ =>
        peer.addPath fromAddr (Node.arrivedDirectly packet) now) fun p _ _ => (h _ _ hpeer).addPath _ _ _
      exact hpaths.onlySends (.foldl _ (fun m target => Node.onlySends_sendProbeHello pr m _ target now) _ _)

theorem learnIdentity (h : SessionsAgreed pr n) (identity : Identity) (now : UInt64) :
    SessionsAgreed pr (n.learnIdentity pr identity now) :=
  .of_peersHold (h.peersHold.learnIdentity identity now (.of_none rfl))

/-! ### The timer -/

theorem queueConfigRequests (h : SessionsAgreed pr n) (now : UInt64) :
    SessionsAgreed pr (n.queueConfigRequests pr now) :=
  .of_peersHold (h.peersHold.queueConfigRequests now)

theorem tick (h : SessionsAgreed pr n) (now : UInt64) : SessionsAgreed pr (n.tick pr now).1 :=
  .of_peersHold (h.peersHold.tick (timerKeeps n.identity) now)

theorem bootstrap (h : SessionsAgreed pr n) (now : UInt64) : SessionsAgreed pr (n.bootstrap pr now).1 :=
  .of_peersHold (h.peersHold.bootstrap (timerKeeps n.identity) now)

/-! ### Worlds -/

theorem addRoots (h : SessionsAgreed pr n) (roots : List WorldRoot) :
    SessionsAgreed pr { n with topology := roots.foldl Topology.addRoot n.topology } :=
  .of_peersHold (h.peersHold.addRoots roots fun root _ =>
    .of_none (by obtain ⟨paths, heq⟩ := Topology.rootPeer_eq root; rw [heq]; rfl))

theorem unloadMoon (h : SessionsAgreed pr n) (moonId : UInt64) :
    SessionsAgreed pr { n with topology := (n.topology.unloadMoon moonId).1 } := by
  refine h.congr rfl ?_
  show (n.topology.unloadMoon moonId).1.peers = _
  unfold Topology.unloadMoon
  split <;> rfl

/-- A node starts without sessions. -/
theorem new {identity : Identity} {planetData : Bytes} {initialPacketId : UInt64} {start : Node}
    (h : Node.new identity planetData initialPacketId = .ok start) : SessionsAgreed pr start := by
  obtain ⟨planet, -, heq⟩ := bind_eq_ok h
  cases heq
  have hnone : SessionsAgreed pr { identity, localAddresses := [], topology := Topology.new
                                   reassembly := .new 256, actions := []
                                   nextPacketId := Node.succPacketId initialPacketId, networks := []
                                   multicastManager := .new, pendingMulticastGathers := []
                                   pendingNetworkConfigs := [], pendingEncryptedPackets := []
                                   armored := [] } := by
    intro a peer hpeer
    cases hpeer
  exact (hnone.addRoots planet.roots).congr rfl rfl

end SessionsAgreed

end ManyTier
