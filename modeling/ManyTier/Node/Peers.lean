import ManyTier.Node.Calls

/-! What holds of every peer.

`PeersHold` says who the node is, which worlds it has loaded, and that something holds of
every peer under its address. An operation keeps that if what it does to one peer does;
`TimerKeeps` says so of what the timer does to a peer. -/
namespace ManyTier

namespace Topology

theorem getPeer_modifyPeer (t : Topology) (address a : ByteVec 5) (f : Peer → Peer) :
    (t.modifyPeer address f).getPeer a = if a = address then (t.getPeer a).map f else t.getPeer a := by
  show (t.peers.modify address f).get? a = _
  rw [SortedMap.get?_modify]
  congr

theorem getPeer_addPeer (t : Topology) (identity : Identity) (a : ByteVec 5) :
    (t.addPeer identity).getPeer a =
      if a = identity.address.bytes ∧ t.getPeer a = none then some (.new identity false) else t.getPeer a := by
  unfold addPeer
  simp only
  split
  · rename_i hknown
    rw [if_neg]
    rintro ⟨rfl, hnone⟩
    rw [SortedMap.contains, show t.peers.get? identity.address.bytes = none from hnone] at hknown
    cases hknown
  · rename_i hnew
    have hnone : t.getPeer identity.address.bytes = none := by
      simpa [SortedMap.contains, getPeer] using hnew
    show (t.peers.insert identity.address.bytes (.new identity false)).get? a = _
    rw [SortedMap.get?_insert]
    by_cases ha : a = identity.address.bytes
    · subst ha
      simp [hnone]
    · simp [ha, getPeer]

/-- A root's entry is replaced. -/
theorem getPeer_addRoot (t : Topology) (root : WorldRoot) (a : ByteVec 5) :
    (t.addRoot root).getPeer a =
      if a = root.identity.address.bytes then some (rootPeer root) else t.getPeer a := by
  show (t.peers.insert root.identity.address.bytes (rootPeer root)).get? a = _
  rw [SortedMap.get?_insert]
  congr

/-- The planet and the moons. -/
def worlds (t : Topology) : Option World × List World := (t.planet, t.moons)

theorem worlds_addPeer (t : Topology) (identity : Identity) : (t.addPeer identity).worlds = t.worlds := by
  unfold addPeer
  simp only
  split <;> rfl

end Topology

/-- Who the node is, what it has loaded, and what holds of every peer. -/
structure PeersHold (us : Identity) (worlds : Option World × List World) (P : ByteVec 5 → Peer → Prop)
    (n : Node) : Prop where
  identity : n.identity = us
  worlds : n.topology.worlds = worlds
  each : ∀ a peer, n.topology.getPeer a = some peer → P a peer

/-- What holds of a peer and survives what the timer does to it. -/
structure TimerKeeps (P : ByteVec 5 → Peer → Prop) : Prop where
  greeted : ∀ a p packetId target now, P a p → P a (Node.greeted packetId target now p)
  waiting : ∀ a p now, P a p → P a (Node.waiting now p)
  pushed : ∀ a (p : Peer) now, P a p → P a { p with lastDirectPathPush := now }
  stale : ∀ a p now, P a p → P a (p.markStale now)

namespace PeersHold
variable {pr : Primitives} {us : Identity} {worlds : Option World × List World} {P Q : ByteVec 5 → Peer → Prop}
  {n n' : Node}

theorem congr (h : PeersHold us worlds P n) (hid : n'.identity = n.identity)
    (hpeers : n'.topology.peers = n.topology.peers) (hworlds : n'.topology.worlds = n.topology.worlds) :
    PeersHold us worlds P n' := by
  refine ⟨hid.trans h.identity, hworlds.trans h.worlds, fun a peer hpeer => ?_⟩
  rw [Topology.getPeer, hpeers] at hpeer
  exact h.each a peer hpeer

theorem keepsPeers (h : PeersHold us worlds P n) (hk : KeepsPeers n n') : PeersHold us worlds P n' :=
  h.congr hk.identity (by rw [hk.topology]) (by rw [hk.topology])

theorem onlySends (h : PeersHold us worlds P n) (hs : OnlySends n n') : PeersHold us worlds P n' :=
  h.keepsPeers hs.keepsPeers

theorem mono (h : PeersHold us worlds P n) (hPQ : ∀ a p, P a p → Q a p) : PeersHold us worlds Q n :=
  ⟨h.identity, h.worlds, fun a peer hpeer => hPQ a peer (h.each a peer hpeer)⟩

/-- What holds may change, if it does so at the peer that is changed and nowhere else. -/
theorem modifyPeer_to (h : PeersHold us worlds P n) (address : ByteVec 5) {f : Peer → Peer}
    (hother : ∀ a p, a ≠ address → P a p → Q a p)
    (hf : ∀ p, n.topology.getPeer address = some p → P address p → Q address (f p)) :
    PeersHold us worlds Q (n.modifyPeer address f) := by
  refine ⟨h.identity, h.worlds, fun a peer hpeer => ?_⟩
  have hpeer' : (n.topology.modifyPeer address f).getPeer a = some peer := hpeer
  rw [Topology.getPeer_modifyPeer] at hpeer'
  split at hpeer'
  · rename_i ha
    subst ha
    obtain ⟨p, hp, rfl⟩ := Option.map_eq_some_iff.mp hpeer'
    exact hf p hp (h.each a p hp)
  · rename_i ha
    exact hother a peer ha (h.each a peer hpeer')

theorem modifyPeer (h : PeersHold us worlds P n) (address : ByteVec 5) {f : Peer → Peer}
    (hf : ∀ p, n.topology.getPeer address = some p → P address p → P address (f p)) :
    PeersHold us worlds P (n.modifyPeer address f) :=
  h.modifyPeer_to address (fun _ _ _ hp => hp) hf

theorem addPeer (h : PeersHold us worlds P n) (identity : Identity)
    (hnew : P identity.address.bytes (.new identity false)) :
    PeersHold us worlds P { n with topology := n.topology.addPeer identity } := by
  refine ⟨h.identity, (n.topology.worlds_addPeer identity).trans h.worlds, fun a peer hpeer => ?_⟩
  have hpeer' : (n.topology.addPeer identity).getPeer a = some peer := hpeer
  rw [Topology.getPeer_addPeer] at hpeer'
  split at hpeer'
  · rename_i ha
    cases hpeer'
    rw [ha.1]
    exact hnew
  · exact h.each a peer hpeer'

theorem foldl {α : Type} {f : Node → α → Node}
    (hf : ∀ m x, PeersHold us worlds P m → PeersHold us worlds P (f m x)) (l : List α)
    (h : PeersHold us worlds P n) : PeersHold us worlds P (l.foldl f n) := by
  induction l generalizing n with
  | nil => exact h
  | cons x rest ih => exact ih (hf n x h)

theorem learnIdentity (h : PeersHold us worlds P n) (identity : Identity) (now : UInt64)
    (hnew : P identity.address.bytes (.new identity false)) :
    PeersHold us worlds P (n.learnIdentity pr identity now) := by
  unfold Node.learnIdentity
  simp only
  have hadd : PeersHold us worlds P { n with topology :=
      { n.topology.addPeer identity with
        pendingWhois := (n.topology.addPeer identity).pendingWhois.erase identity.address.bytes } } :=
    (h.addPeer identity hnew).congr rfl rfl rfl
  split
  · exact hadd.onlySends (Node.onlySends_sendHello pr _ ..)
  · exact hadd

/-- What ends with its admission touches no peer. -/
theorem finished (h : PeersHold us worlds P n) {data : Bytes} {fromAddr : SocketAddr} {now : UInt64}
    (hadmitted : n.admitPacket pr data fromAddr now = .finished n') : PeersHold us worlds P n' := by
  have hclear : PeersHold us worlds P { n with actions := [] } := h.congr rfl rfl rfl
  obtain ⟨-, rfl | rfl | rfl⟩ := Node.admitPacket_finished hadmitted
  · exact hclear
  · exact hclear.onlySends (Node.onlySends_handleRelay pr _ ..)
  · unfold Node.dropUnopened
    simp only
    split
    · exact hclear.congr rfl rfl rfl
    · exact hclear

/-! ### The timer -/

theorem greet (h : PeersHold us worlds P n) (address : ByteVec 5) (target : SocketAddr) (now : UInt64)
    {remember : Peer → Peer} (hr : ∀ p, P address p → P address (remember p)) :
    PeersHold us worlds P (n.greet pr address target now remember) := by
  unfold Node.greet
  simp only
  split
  · exact h
  · split
    · exact (h.onlySends (Node.onlySends_sendArmored pr n ..)).modifyPeer address fun p _ => hr p
    · exact h

theorem takeActions (h : PeersHold us worlds P n) : PeersHold us worlds P n.takeActions.1 := h.congr rfl rfl rfl

theorem bootstrap (hP : TimerKeeps P) (h : PeersHold us worlds P n) (now : UInt64) :
    PeersHold us worlds P (n.bootstrap pr now).1 := by
  have hclear : PeersHold us worlds P { n with actions := [] } := h.congr rfl rfl rfl
  have hfirst : ∀ (m : Node) (target : ByteVec 5 × SocketAddr), PeersHold us worlds P m →
      PeersHold us worlds P (Node.firstHello pr now m target) := by
    intro m target hm
    exact hm.greet target.1 target.2 now fun p => hP.waiting target.1 p now
  exact (foldl hfirst (n.rootTargets false) hclear).takeActions

variable (pr) in
theorem greetAll (hP : TimerKeeps P) (h : PeersHold us worlds P n) (targets : List (ByteVec 5 × SocketAddr))
    (now packetId : UInt64) : PeersHold us worlds P (n.greetAll pr targets now packetId) := by
  unfold Node.greetAll
  refine foldl (fun m target hm => ?_) targets h
  exact hm.greet target.1 target.2 now fun p => hP.greeted target.1 p packetId target.2 now

theorem pushDirectPaths (hP : TimerKeeps P) (h : PeersHold us worlds P n) (now : UInt64) :
    PeersHold us worlds P (n.pushDirectPaths pr now) := by
  unfold Node.pushDirectPaths
  split
  · exact h
  · refine foldl (fun m target hm => ?_) _ h
    unfold Node.pushDirectPathsTo
    split
    · exact hm
    · exact (hm.onlySends (Node.onlySends_sendEncrypted pr m ..)).modifyPeer _ fun p _ => hP.pushed target.1 p now

theorem markStalePeers (hP : TimerKeeps P) (h : PeersHold us worlds P n) (now : UInt64) :
    PeersHold us worlds P (n.markStalePeers now) := by
  refine ⟨h.identity, h.worlds, fun a peer hpeer => ?_⟩
  have hpeer' : (n.topology.peers.mapEntries fun _ peer =>
      if peer.isStale now then peer.markStale now else peer).get? a = some peer := hpeer
  rw [SortedMap.get?_mapEntries] at hpeer'
  obtain ⟨p, hp, rfl⟩ := Option.map_eq_some_iff.mp hpeer'
  show P a (if p.isStale now then p.markStale now else p)
  split
  · exact hP.stale a p now (h.each a p hp)
  · exact h.each a p hp

variable (pr) in
theorem greetings (hP : TimerKeeps P) (h : PeersHold us worlds P n) (now : UInt64) :
    PeersHold us worlds P (n.greetings pr now) := by
  have hexpired : PeersHold us worlds P (n.expire now) := h.congr rfl rfl rfl
  have hpinged := ((hexpired.markStalePeers hP now).greetAll pr hP
    (((n.expire now).markStalePeers now).pingTargets now) now 0).greetAll pr hP
    (((n.expire now).markStalePeers now).heartbeatTargets now) now 0
  have halive : PeersHold us worlds P (((n.expire now).markStalePeers now).keepAlive pr now) :=
    (hpinged.pushDirectPaths hP now).greetAll pr hP _ now now
  exact halive.greetAll pr hP _ now now

theorem modifyNetwork (h : PeersHold us worlds P n) (networkId : UInt64) (f : NetworkMembership → NetworkMembership) :
    PeersHold us worlds P (n.modifyNetwork networkId f) := h.congr rfl rfl rfl

theorem queueConfigRequests (h : PeersHold us worlds P n) (now : UInt64) :
    PeersHold us worlds P (n.queueConfigRequests pr now) := by
  refine foldl (fun m id hm => ?_) _ (h.congr rfl rfl rfl)
  unfold Node.requestConfig
  simp only
  split
  · exact hm
  · split
    · unfold Node.requestController
      split
      · exact hm.congr rfl rfl rfl
      · exact hm
    · split
      · exact hm
      · exact (hm.onlySends (Node.onlySends_sendEncrypted pr m ..)).modifyNetwork ..

/-- A fold over what is under way keeps the peers if each turn does. -/
theorem foldl_fst {α : Type} {f : Node.Multicasting → α → Node.Multicasting}
    (hf : ∀ m x, PeersHold us worlds P m.1 → PeersHold us worlds P (f m x).1) (l : List α) {m : Node.Multicasting}
    (h : PeersHold us worlds P m.1) : PeersHold us worlds P (l.foldl f m).1 := by
  induction l generalizing m with
  | nil => exact h
  | cons x rest ih => exact ih (hf m x h)

theorem toPeer (now : UInt64) {send : Node → ByteVec 5 → Secret → SocketAddr → Node}
    (hsend : ∀ m address secret target, PeersHold us worlds P m → PeersHold us worlds P (send m address secret target))
    (m : Node.Multicasting) (address : ByteVec 5) (h : PeersHold us worlds P m.1) :
    PeersHold us worlds P (Node.toPeer now send m address).1 := by
  unfold Node.toPeer
  split
  · exact hsend _ _ _ _ h
  · exact h

theorem multicastRound (h : PeersHold us worlds P n) (now : UInt64) :
    PeersHold us worlds P (n.multicastRound pr now) := by
  unfold Node.multicastRound
  simp only
  set likes := List.foldl (Node.sendLikes pr now) (n, []) _
  set done := List.foldl (Node.sendGathers pr now) likes _
  have hlikes : PeersHold us worlds P likes.1 := by
    refine foldl_fst (fun m net hm => ?_) _ h
    refine foldl_fst (toPeer now fun m address secret target hm => ?_) _ (hm.congr rfl rfl rfl)
    exact hm.onlySends (Node.onlySends_sendEncrypted pr m ..)
  have hdone : PeersHold us worlds P done.1 := by
    refine foldl_fst (fun m net hm => ?_) _ hlikes
    refine foldl_fst (toPeer now fun m address secret target hm => ?_) _ (hm.congr rfl rfl rfl)
    refine foldl (fun m group hm => ?_) _ hm
    obtain ⟨asked, hgather⟩ := Node.sendGather_eq pr m net.1.networkId now address secret target group
    rw [hgather]
    exact (hm.onlySends (Node.onlySends_sendEncrypted pr m ..)).congr rfl rfl rfl
  split
  · exact hdone
  · exact hdone.onlySends (Node.onlySends_pushAction _ rfl)

theorem tick (hP : TimerKeeps P) (h : PeersHold us worlds P n) (now : UInt64) :
    PeersHold us worlds P (n.tick pr now).1 :=
  (((h.greetings pr hP now).queueConfigRequests now).multicastRound now).takeActions

/-! ### Worlds -/

/-- The roots of a world are entered with the endpoints listed for them. -/
theorem addRoots (h : PeersHold us worlds P n) (roots : List WorldRoot)
    (hnew : ∀ root ∈ roots, P root.identity.address.bytes (Topology.rootPeer root)) :
    PeersHold us worlds P { n with topology := roots.foldl Topology.addRoot n.topology } := by
  induction roots generalizing n with
  | nil => exact h
  | cons root rest ih =>
    refine ih (n := { n with topology := n.topology.addRoot root }) ⟨h.identity, h.worlds, ?_⟩
      fun r hr => hnew r (List.mem_cons_of_mem _ hr)
    intro a peer hpeer
    have hpeer' : (n.topology.addRoot root).getPeer a = some peer := hpeer
    rw [Topology.getPeer_addRoot] at hpeer'
    split at hpeer'
    · rename_i ha
      cases hpeer'
      rw [ha]
      exact hnew root List.mem_cons_self
    · exact h.each a peer hpeer'

end PeersHold

end ManyTier
