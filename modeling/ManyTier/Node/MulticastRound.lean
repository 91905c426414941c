import ManyTier.Node.Steady

/-! What a round of multicast sends.

For every network with groups of our own and other members, when it is due, each member
is sent our groups, and each is asked for the subscribers of each of them. A member that
cannot be reached is asked for instead (`multicastRound_reaches`). -/
namespace ManyTier

namespace Node

/-- Later in a round: the peers and the subscriptions are the same, and more may have been
sent and found unresolved. -/
structure Later (m m' : Multicasting) : Prop where
  identity : m'.1.identity = m.1.identity
  topology : m'.1.topology = m.1.topology
  multicast : m'.1.multicastManager = m.1.multicastManager
  actions : ∀ a ∈ m.1.actions, a ∈ m'.1.actions
  unresolved : ∀ a ∈ m.2, a ∈ m'.2

namespace Later
variable {a b c : Multicasting}

theorem refl (m : Multicasting) : Later m m := ⟨rfl, rfl, rfl, fun _ h => h, fun _ h => h⟩

theorem trans (h : Later a b) (h' : Later b c) : Later a c :=
  ⟨h'.identity.trans h.identity, h'.topology.trans h.topology, h'.multicast.trans h.multicast,
    fun x hx => h'.actions x (h.actions x hx), fun x hx => h'.unresolved x (h.unresolved x hx)⟩

theorem foldl {α : Type} (f : Multicasting → α → Multicasting) (hf : ∀ m x, Later m (f m x)) (l : List α)
    (m : Multicasting) : Later m (l.foldl f m) := by
  induction l generalizing m with
  | nil => exact refl m
  | cons x rest ih => exact (hf m x).trans (ih _)

theorem localGroups (h : Later a b) (networkId : UInt64) : b.1.localGroups networkId = a.1.localGroups networkId := by
  rw [Node.localGroups, Node.localGroups, h.multicast, Node.address, Node.address, h.identity]

theorem otherMembers (h : Later a b) (net : NetworkMembership) : b.1.otherMembers net = a.1.otherMembers net := by
  rw [Node.otherMembers, Node.otherMembers, Node.address, Node.address, h.identity]

theorem activeEndpoint (h : Later a b) (address : ByteVec 5) (now : UInt64) :
    b.1.activeEndpoint address now = a.1.activeEndpoint address now := by
  rw [Node.activeEndpoint, Node.activeEndpoint, h.topology]

end Later

variable (pr : Primitives)

/-- What is sent is a packet under the peer's secret to its address. -/
theorem sendEncrypted_sends (n : Node) (dest : ByteVec 5) (verb : Verb) (payload : Bytes) (secret : Secret)
    (address : SocketAddr) :
    ∃ packetId sealed, Salsa.armorPacket pr secret (encryptedVerbPacket packetId n.address dest verb payload) true =
      .ok sealed ∧ (n.sendEncrypted pr dest verb payload secret address).actions =
        n.actions ++ [.sendTo sealed address] := by
  obtain ⟨sealed, harmor⟩ := isOk_armorPacket_encrypted pr secret n.nextPacketId n.address dest verb payload
  refine ⟨n.nextPacketId, sealed, harmor, ?_⟩
  unfold sendEncrypted sendArmored
  simp only [allocatePacketId]
  rw [show (Node.address { n with nextPacketId := succPacketId n.nextPacketId }) = n.address from rfl, harmor]

theorem later_sendEncrypted (n : Node) (unresolved : List (ByteVec 5)) (dest : ByteVec 5) (verb : Verb)
    (payload : Bytes) (secret : Secret) (address : SocketAddr) :
    Later (n, unresolved) (n.sendEncrypted pr dest verb payload secret address, unresolved) := by
  have hsend := onlySends_sendEncrypted pr n dest verb payload secret address
  have hmulticast := undisturbed_sendEncrypted pr n dest verb payload secret address
  obtain ⟨-, sealed, -, hactions⟩ := sendEncrypted_sends pr n dest verb payload secret address
  refine ⟨hsend.identity, hsend.topology, hmulticast.multicast, fun a ha => ?_, fun _ h => h⟩
  rw [hactions]
  exact List.mem_append_left _ ha

/-! ### One member -/

/-- A packet has gone to a member, or the member cannot be reached and is noted. -/
def Told (now : UInt64) (address : ByteVec 5) (verb : Verb) (payload : Bytes) (m : Multicasting) : Prop :=
  (∃ secret target packetId sealed, m.1.activeEndpoint address now = some (secret, target) ∧
    Salsa.armorPacket pr secret (encryptedVerbPacket packetId m.1.address address verb payload) true = .ok sealed ∧
    .sendTo sealed target ∈ m.1.actions) ∨
  (m.1.activeEndpoint address now = none ∧ address ∈ m.2)

variable {pr}

theorem Told.later {now : UInt64} {address : ByteVec 5} {verb : Verb} {payload : Bytes} {m m' : Multicasting}
    (h : Told pr now address verb payload m) (hlater : Later m m') : Told pr now address verb payload m' := by
  have haddress : m'.1.address = m.1.address := by rw [Node.address, Node.address, hlater.identity]
  unfold Told at h ⊢
  rw [hlater.activeEndpoint, haddress]
  rcases h with ⟨secret, target, packetId, sealed, hend, harmor, hsent⟩ | ⟨hnone, hnoted⟩
  · exact .inl ⟨secret, target, packetId, sealed, hend, harmor, hlater.actions _ hsent⟩
  · exact .inr ⟨hnone, hlater.unresolved _ hnoted⟩

section
variable {now : UInt64} {send : Node → ByteVec 5 → Secret → SocketAddr → Node}
  (hsend : ∀ n unresolved address secret target, Later (n, unresolved) (send n address secret target, unresolved))
include hsend

theorem later_toPeer (m : Multicasting) (address : ByteVec 5) : Later m (toPeer now send m address) := by
  unfold toPeer
  split
  · exact hsend m.1 m.2 ..
  · refine ⟨rfl, rfl, rfl, fun _ h => h, fun a ha => List.mem_append_left _ ha⟩

/-- A member is told what is sent to every member that can be reached. -/
theorem told_toPeer {verb : Verb} {payload : Bytes} (m : Multicasting) (address : ByteVec 5)
    (hsent : ∀ secret target, ∃ packetId sealed,
      Salsa.armorPacket pr secret (encryptedVerbPacket packetId m.1.address address verb payload) true = .ok sealed ∧
        .sendTo sealed target ∈ (send m.1 address secret target).actions) :
    Told pr now address verb payload (toPeer now send m address) := by
  have hlater : Later m (toPeer now send m address) := later_toPeer hsend m address
  have haddress : (toPeer now send m address).1.address = m.1.address := by
    rw [Node.address, Node.address, hlater.identity]
  unfold Told
  rw [hlater.activeEndpoint, haddress]
  unfold toPeer
  split
  · rename_i secret target hend
    obtain ⟨packetId, sealed, harmor, hmem⟩ := hsent secret target
    exact .inl ⟨secret, target, packetId, sealed, hend, harmor, hmem⟩
  · rename_i hnone
    exact .inr ⟨hnone, List.mem_append_right _ (by simp)⟩

end

/-! ### One network -/

theorem later_modifyNetwork (m : Multicasting) (networkId : UInt64) (f : NetworkMembership → NetworkMembership) :
    Later m (m.1.modifyNetwork networkId f, m.2) := ⟨rfl, rfl, rfl, fun _ h => h, fun _ h => h⟩

theorem later_sendLikes (now : UInt64) (m : Multicasting) (net : NetworkMembership) :
    Later m (sendLikes pr now m net) := by
  unfold sendLikes
  refine (later_modifyNetwork m net.networkId _).trans (.foldl _ (later_toPeer ?_) _ _)
  intro n unresolved address secret target
  exact later_sendEncrypted pr n unresolved ..

/-- Every other member is sent our groups. -/
theorem told_sendLikes (now : UInt64) (m : Multicasting) (net : NetworkMembership) :
    ∀ a ∈ m.1.otherMembers net, Told pr now a .multicastLike
      (MulticastLikePayload.serialize (m.1.localGroups net.networkId)) (sendLikes pr now m net) := by
  have hsend : ∀ (payload : Bytes) (n : Node) unresolved (address : ByteVec 5) secret target,
      Later (n, unresolved) (n.sendEncrypted pr address .multicastLike payload secret target, unresolved) :=
    fun payload n unresolved address secret target => later_sendEncrypted pr n unresolved ..
  unfold sendLikes
  refine foldl_each (fun _ => True) _ (fun _ _ _ => trivial) ?_ ?_ trivial
  · intro m' a _
    refine told_toPeer (hsend _) m' a fun secret target => ?_
    obtain ⟨packetId, sealed, harmor, hactions⟩ := sendEncrypted_sends pr m'.1 a .multicastLike _ secret target
    refine ⟨packetId, sealed, harmor, ?_⟩
    show .sendTo sealed target ∈ (m'.1.sendEncrypted pr a .multicastLike
      (MulticastLikePayload.serialize (m.1.localGroups net.networkId)) secret target).actions
    rw [hactions]
    simp
  · intro m' b a _ htold
    exact htold.later (later_toPeer (hsend _) m' b)

/-- The question for the subscribers of a group. -/
def gatherPayload (networkId : UInt64) (group : MulticastGroup) : Bytes :=
  MulticastGatherPayload.serialize
    { networkId, flags := 0, mac := group.mac, adi := group.adi, gatherLimit := 64, com := none }

variable (pr) in
theorem later_sendGather (networkId now : UInt64) (address : ByteVec 5) (secret : Secret) (target : SocketAddr)
    (n : Node) (unresolved : List (ByteVec 5)) (group : MulticastGroup) :
    Later (n, unresolved) (sendGather pr networkId now address secret target n group, unresolved) := by
  have hlater := later_sendEncrypted pr n unresolved address .multicastGather (gatherPayload networkId group) secret target
  obtain ⟨asked, hgather⟩ := sendGather_eq pr n networkId now address secret target group
  rw [hgather]
  exact ⟨hlater.identity, hlater.topology, hlater.multicast, hlater.actions, hlater.unresolved⟩

theorem later_gathers (networkId now : UInt64) (address : ByteVec 5) (secret : Secret) (target : SocketAddr)
    (groups : List MulticastGroup) (n : Node) (unresolved : List (ByteVec 5)) :
    Later (n, unresolved) (groups.foldl (sendGather pr networkId now address secret target) n, unresolved) := by
  induction groups generalizing n with
  | nil => exact .refl _
  | cons group rest ih => exact (later_sendGather pr networkId now address secret target n unresolved group).trans (ih _)

theorem later_sendGathers (now : UInt64) (m : Multicasting) (net : NetworkMembership × List MulticastGroup) :
    Later m (sendGathers pr now m net) := by
  unfold sendGathers
  refine (later_modifyNetwork m net.1.networkId _).trans (.foldl _ (later_toPeer ?_) _ _)
  intro n unresolved address secret target
  exact later_gathers ..

/-- Every other member is asked for the subscribers of every group. -/
theorem told_sendGathers (now : UInt64) (m : Multicasting) (net : NetworkMembership × List MulticastGroup) :
    ∀ a ∈ m.1.otherMembers net.1, ∀ g ∈ net.2,
      Told pr now a .multicastGather (gatherPayload net.1.networkId g) (sendGathers pr now m net) := by
  unfold sendGathers
  refine foldl_each (fun _ => True) (fun a m => ∀ g ∈ net.2,
    Told pr now a .multicastGather (gatherPayload net.1.networkId g) m) (fun _ _ _ => trivial) ?_ ?_ trivial
  · intro m' a _ g hg
    refine told_toPeer (fun n unresolved address secret target => later_gathers ..) m' a fun secret target => ?_
    -- The question about the group is among those put to the member.
    refine foldl_each (fun n : Node => n.address = m'.1.address) (fun g (n : Node) => ∃ packetId sealed,
      Salsa.armorPacket pr secret (encryptedVerbPacket packetId m'.1.address a .multicastGather
        (gatherPayload net.1.networkId g)) true = .ok sealed ∧ .sendTo sealed target ∈ n.actions)
      (fun n b hn => ?_) (fun n b hn => ?_) (fun n b x hn h => ?_) rfl g hg
    · have hlater := later_sendGather pr net.1.networkId now a secret target n [] b
      show (sendGather pr net.1.networkId now a secret target n b).identity.address.bytes = _
      rw [hlater.identity]
      exact hn
    · obtain ⟨packetId, sealed, harmor, hactions⟩ :=
        sendEncrypted_sends pr n a .multicastGather (gatherPayload net.1.networkId b) secret target
      rw [hn] at harmor
      obtain ⟨asked, hgather⟩ := sendGather_eq pr n net.1.networkId now a secret target b
      refine ⟨packetId, sealed, harmor, ?_⟩
      rw [hgather]
      show _ ∈ (n.sendEncrypted pr a .multicastGather (gatherPayload net.1.networkId b) secret target).actions
      rw [hactions]
      simp
    · obtain ⟨packetId, sealed, harmor, hmem⟩ := h
      exact ⟨packetId, sealed, harmor, (later_sendGather pr net.1.networkId now a secret target n [] b).actions _ hmem⟩
  · intro m' b a _ htold g hg
    exact (htold g hg).later (later_toPeer (fun n unresolved address secret target => later_gathers ..) m' b)

/-! ### The round -/

variable (pr) in
/-- A packet went to a member, or the member cannot be reached and was asked for. -/
def Reached (n : Node) (now : UInt64) (address : ByteVec 5) (verb : Verb) (payload : Bytes)
    (actions : List NodeAction) : Prop :=
  (∃ secret target packetId sealed, n.activeEndpoint address now = some (secret, target) ∧
    Salsa.armorPacket pr secret (encryptedVerbPacket packetId n.address address verb payload) true = .ok sealed ∧
    .sendTo sealed target ∈ actions) ∨
  (n.activeEndpoint address now = none ∧ ∃ addresses, .whoisNeeded addresses ∈ actions ∧ address ∈ addresses)

variable (pr) in
/-- When a network with groups of ours and other members is due, each of these is sent the
groups, or asked for the subscribers of each. -/
theorem multicastRound_reaches (n : Node) (now : UInt64) :
    ∀ net ∈ n.multicastNetworks, ∀ a ∈ n.otherMembers net,
      let n' := n.multicastRound pr now
      (multicastLikeInterval ≤ satSub now net.lastMulticastLike →
        Reached pr n' now a .multicastLike (MulticastLikePayload.serialize (n.localGroups net.networkId)) n'.actions) ∧
      (multicastGatherInterval ≤ satSub now net.lastMulticastGather → ∀ g ∈ n.localGroups net.networkId,
        Reached pr n' now a .multicastGather (gatherPayload net.networkId g) n'.actions) := by
  intro net hnet a ha n'
  set nets := n.multicastNetworks with hnets
  set likes := nets.filter fun net => multicastLikeInterval ≤ satSub now net.lastMulticastLike with hlikes
  set gathers := (nets.filter fun net => multicastGatherInterval ≤ satSub now net.lastMulticastGather).map
    fun net => (net, n.localGroups net.networkId) with hgathers
  set liked := likes.foldl (sendLikes pr now) (n, []) with hliked
  set done := gathers.foldl (sendGathers pr now) liked with hdone
  have hlater : Later (n, []) liked := .foldl _ (later_sendLikes now) _ _
  have hlater' : Later liked done := .foldl _ (later_sendGathers now) _ _
  -- At the end, those noted are asked for.
  have hreached : ∀ {verb payload}, Told pr now a verb payload done → Reached pr n' now a verb payload n'.actions := by
    intro verb payload htold
    have hn' : n' = if done.2.isEmpty then done.1
        else done.1.pushAction (.whoisNeeded (done.2.dedup.insertionSort (· ≤ ·))) := rfl
    rw [hn']
    rcases htold with ⟨secret, target, packetId, sealed, hend, harmor, hsent⟩ | ⟨hnone, hnoted⟩
    · left
      split
      · exact ⟨secret, target, packetId, sealed, hend, harmor, hsent⟩
      · exact ⟨secret, target, packetId, sealed, hend, harmor, List.mem_append_left _ hsent⟩
    · right
      rw [if_neg (by simpa using List.ne_nil_of_mem hnoted)]
      refine ⟨hnone, _, List.mem_append_right _ (List.mem_singleton.mpr rfl), ?_⟩
      rw [List.mem_insertionSort, List.mem_dedup]
      exact hnoted
  refine ⟨fun hdue => hreached ?_, fun hdue g hg => hreached ?_⟩
  · have hmem : net ∈ likes := List.mem_filter.mpr ⟨hnet, by simpa using hdue⟩
    have htold := foldl_each (Later (n, [])) (fun (net : NetworkMembership) m => ∀ a ∈ n.otherMembers net,
        Told pr now a .multicastLike (MulticastLikePayload.serialize (n.localGroups net.networkId)) m)
      (fun m net h => h.trans (later_sendLikes now m net))
      (fun m net h => by
        rw [← h.otherMembers, ← h.localGroups]
        exact told_sendLikes now m net)
      (fun m net x _ h a ha => (h a ha).later (later_sendLikes now m net)) (.refl _) net hmem a ha
    exact htold.later hlater'
  · have hmem : (net, n.localGroups net.networkId) ∈ gathers := by
      refine List.mem_map_of_mem (f := fun net : NetworkMembership => (net, n.localGroups net.networkId)) ?_
      exact List.mem_filter.mpr ⟨hnet, by simpa using hdue⟩
    exact foldl_each (Later (n, [])) (fun (net : NetworkMembership × List MulticastGroup) m =>
        ∀ a ∈ n.otherMembers net.1, ∀ g ∈ net.2,
          Told pr now a .multicastGather (gatherPayload net.1.networkId g) m)
      (fun m net h => h.trans (later_sendGathers now m net))
      (fun m net h => by
        rw [← h.otherMembers]
        exact told_sendGathers now m net)
      (fun m net x _ h a ha g hg => (h a ha g hg).later (later_sendGathers now m net)) hlater _ hmem a ha g hg

end Node

end ManyTier
