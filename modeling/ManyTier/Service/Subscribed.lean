import ManyTier.Node.MulticastRound
import ManyTier.Node.Subscriptions
import ManyTier.Service.Machine

/-! Whether a node stays subscribed to a network it has joined.

Joining subscribes the node to the network's ARP group at time 0, and nothing of its own
renews that. The subscription is lost when the timer finds it too old, and when a
MULTICAST_LIKE in the node's own name leaves the group out. A step that does neither keeps
it (`KeepsOwnGroup`), and then each tick that is due tells every other member. -/
namespace ManyTier

namespace Node
variable {pr : Primitives} {n n' : Node}

/-- Who the node is, and that it listens to the ARP group of a network. -/
def OwnGroup (networkId : UInt64) (ours : ByteVec 5) (n : Node) : Prop :=
  n.address = ours ∧ n.multicastManager.listens (arpMulticastGroup networkId) ours

theorem OwnGroup.of_undisturbed {networkId : UInt64} {ours : ByteVec 5} (h : n.OwnGroup networkId ours)
    (hn : Undisturbed n n') : n'.OwnGroup networkId ours := by
  unfold OwnGroup at h ⊢
  rw [hn.multicast, Node.address, hn.identity]
  exact h

theorem OwnGroup.of_steady {networkId : UInt64} {ours : ByteVec 5} (h : n.OwnGroup networkId ours)
    (hn : Steady n n') : n'.OwnGroup networkId ours :=
  h.of_undisturbed (undisturbed_of_steady hn)

end Node

/-- A MULTICAST_LIKE in the node's own name that mentions the network lists its ARP group. -/
def Call.ListsOwnGroup (pr : Primitives) (networkId : UInt64) (c : Call) : Prop :=
  ∀ d groups, c.dispatched pr = some d → Verb.fromByte d.verbId = some .multicastLike →
    d.source = c.before.address →
    MulticastLikePayload.deserialize (d.packet.drop Constants.minPacketLength) = .ok groups →
    (∃ g ∈ groups, g.networkId = networkId) → arpMulticastGroup networkId ∈ groups

namespace Node
variable {pr : Primitives} {networkId : UInt64} {ours : ByteVec 5}

theorem OwnGroup.finished {n n' : Node} (h : n.OwnGroup networkId ours) {data : Bytes} {fromAddr : SocketAddr}
    {now : UInt64} (hadmitted : n.admitPacket pr data fromAddr now = .finished n') : n'.OwnGroup networkId ours := by
  obtain ⟨-, rfl | rfl | rfl⟩ := admitPacket_finished hadmitted
  · exact h
  · exact OwnGroup.of_steady (n := { n with actions := [] }) h (steady_handleRelay pr _ data now)
  · unfold dropUnopened
    simp only
    split
    · exact h
    · exact h

theorem OwnGroup.alone {c : Call} {d : Dispatch} {n' : Node} (h : c.before.OwnGroup networkId ours)
    (hlists : c.ListsOwnGroup pr networkId) (hd : c.dispatched pr = some d)
    (halone : handleAlone pr d c.fromAddr c.now = .ok n') : n'.OwnGroup networkId ours := by
  have hnoted : d.node.OwnGroup networkId ours := by
    rw [Call.dispatched_node hd]
    exact h
  rcases handleAlone_steady pr halone with hsteady | ⟨hverb, rfl⟩ | ⟨-, rfl⟩ | ⟨-, packetId, data, rfl⟩
  · exact hnoted.of_steady hsteady
  · rw [Vl2.handleMulticastLike_eq]
    split
    · exact hnoted
    · rename_i groups hparse
      refine ⟨hnoted.1, Vl2.listens_takeLike d.source groups c.now hnoted.2 fun hown hmentions => ?_⟩
      exact hlists d groups hd hverb (hown.trans h.1.symm) hparse hmentions
  · unfold handleNetworkCredentials
    split
    · exact hnoted
    · exact hnoted
  · unfold handleMulticastGatherOk
    split
    · rename_i pending _ _
      refine ⟨hnoted.1, MulticastManager.listens_subscribeAll c.now (fun s => (pending.group, s)) _ hnoted.2⟩
    · exact hnoted

variable (pr) in
theorem ownGroup_invariant (networkId : UInt64) (ours : ByteVec 5) :
    CallInvariant pr (fun c => c.ListsOwnGroup pr networkId) (OwnGroup networkId ours) := by
  refine ⟨fun _ _ _ _ h => h, fun _ _ _ _ _ hadmitted h => h.finished hadmitted,
    fun c d n' hlists hd halone h => h.alone hlists hd halone, fun c d _ hd _ _ h => ?_, fun n identity now h => ?_⟩
  · rw [Call.dispatched_node hd]
    exact h
  · exact h.of_steady (steady_learnIdentity pr n identity now)

/-! ### The timer -/

/-- Our subscription to a network's ARP group is not too old for the timer. -/
def OwnGroupFresh (networkId : UInt64) (n : Node) (now : UInt64) : Prop :=
  ∀ s ∈ n.multicastManager.subscribersOf (arpMulticastGroup networkId), s.ztAddress = n.address →
    satSub now s.subscribedAt ≤ multicastSubscriptionMaxAge

theorem OwnGroup.expire {n : Node} (h : n.OwnGroup networkId ours) {now : UInt64} (hfresh : n.OwnGroupFresh networkId now) :
    (n.expire now).OwnGroup networkId ours := by
  refine ⟨h.1, MulticastManager.listens_retain h.2 fun s hs hown => ?_⟩
  exact decide_eq_true (hfresh s hs (hown.trans h.1.symm))

/-- Of a membership, the rounds look at who is a member and at their own timers. -/
def roundView (net : NetworkMembership) : UInt64 × List NetworkMember × UInt64 × UInt64 :=
  (net.networkId, net.members, net.lastMulticastLike, net.lastMulticastGather)

theorem reached_takeActions {m : Node} {now : UInt64} {address : ByteVec 5} {verb : Verb} {payload : Bytes}
    (h : Reached pr m now address verb payload m.actions) :
    Reached pr m.takeActions.1 now address verb payload m.takeActions.2 := h

variable (pr) in
/-- A tick of a subscribed node: on a network with another member, when it is due, that
member is sent our groups with the ARP group among them, and asked for its subscribers. -/
theorem tick_tells {n : Node} {now : UInt64} (h : (n.expire now).OwnGroup networkId ours) :
    ∀ net ∈ n.networks, net.networkId = networkId → ∀ member ∈ net.members, member.ztAddress ≠ ours →
      let n' := (n.tick pr now).1
      let actions := (n.tick pr now).2
      (multicastLikeInterval ≤ satSub now net.lastMulticastLike → ∃ groups, arpMulticastGroup networkId ∈ groups ∧
        Reached pr n' now member.ztAddress .multicastLike (MulticastLikePayload.serialize groups) actions) ∧
      (multicastGatherInterval ≤ satSub now net.lastMulticastGather →
        Reached pr n' now member.ztAddress .multicastGather
          (gatherPayload networkId (arpMulticastGroup networkId)) actions) := by
  intro net hnet hid member hmember hother
  rw [tick_eq]
  set m := (n.greetings pr now).queueConfigRequests pr now with hm
  have hquiet : Undisturbed (n.expire now) m := (undisturbed_of_steady (steady_greetings pr n now)).trans
    (undisturbed_queueConfigRequests pr _ now)
  have hown : m.OwnGroup networkId ours := h.of_undisturbed hquiet
  have hgroup : arpMulticastGroup networkId ∈ m.localGroups networkId := by
    have hlocal := MulticastManager.mem_groupsForSubscriber hown.2
    rw [show (arpMulticastGroup networkId).networkId = networkId from rfl] at hlocal
    rw [Node.localGroups, hown.1]
    exact hlocal
  -- The membership in the round is the one before it, but for its requests.
  have hviews : m.networks.map roundView = n.networks.map roundView := by
    rw [hm, map_networks_queueConfigRequests pr _ roundView (fun _ _ _ => rfl), networks_greetings]
  obtain ⟨net', hnet', hview⟩ := List.mem_map.mp (hviews ▸ List.mem_map_of_mem (f := roundView) hnet)
  obtain ⟨hid', hmembers, hlike, hgather⟩ :
      net'.networkId = net.networkId ∧ net'.members = net.members ∧
        net'.lastMulticastLike = net.lastMulticastLike ∧ net'.lastMulticastGather = net.lastMulticastGather := by
    simpa [roundView] using hview
  have hid'' : net'.networkId = networkId := hid'.trans hid
  have hmem : member.ztAddress ∈ m.otherMembers net' := by
    refine List.mem_map_of_mem (List.mem_filter.mpr ⟨hmembers ▸ hmember, ?_⟩)
    rw [hown.1]
    simpa using hother
  have hround : net' ∈ m.multicastNetworks := by
    refine List.mem_filter.mpr ⟨hnet', ?_⟩
    rw [hid'']
    simp [List.ne_nil_of_mem hgroup, List.ne_nil_of_mem hmem]
  obtain ⟨hlikes, hgathers⟩ := multicastRound_reaches pr m now net' hround _ hmem
  rw [hid''] at hlikes hgathers
  rw [hlike] at hlikes
  rw [hgather] at hgathers
  exact ⟨fun hdue => ⟨_, hgroup, reached_takeActions (hlikes hdue)⟩,
    fun hdue => reached_takeActions (hgathers hdue _ hgroup)⟩

end Node

namespace Service
variable {pr : Primitives}

/-! ### Other steps -/

theorem undisturbed_responseChunks (requesterAddress : ByteVec 5) (requestPacketId networkId configUpdateId : UInt64)
    (dictData : Bytes) (sharedSecret : Secret) (chunks : List Nat) (n : Node) :
    Node.Undisturbed n (responseChunks pr requesterAddress requestPacketId networkId configUpdateId dictData
      sharedSecret chunks n).1 := by
  induction chunks generalizing n with
  | nil => exact .refl n
  | cons i rest ih =>
    unfold responseChunks
    split
    · exact .refl n
    · simp only
      split
      · exact ⟨rfl, rfl, rfl⟩
      · refine Node.Undisturbed.trans ?_ (ih _)
        exact ⟨rfl, rfl, rfl⟩

theorem undisturbed_respondConfig {n n' : Node} {requesterAddress : ByteVec 5} {requestPacketId networkId : UInt64}
    {dictData : Bytes} {credentials : NetworkCredentialsPayload} {fromAddr : SocketAddr}
    (h : respondConfig pr n requesterAddress requestPacketId networkId dictData credentials fromAddr = .ok n') :
    Node.Undisturbed n n' := by
  unfold respondConfig at h
  split at h
  · cases h
    exact .refl n
  · rename_i secret _
    have hbuild : Node.Undisturbed n (buildNetworkConfigResponsePackets pr n requesterAddress requestPacketId
        networkId dictData secret).1 := by
      unfold buildNetworkConfigResponsePackets
      split
      · exact .refl n
      · exact (Node.undisturbed_of_steady (Node.steady_allocatePacketId n)).trans (undisturbed_responseChunks ..)
    split at h
    · rename_i m packet packets hm
      rw [hm] at hbuild
      obtain ⟨payload, -, heq⟩ := bind_eq_ok h
      cases heq
      refine Node.Undisturbed.trans ?_ (Node.undisturbed_sendEncrypted pr _ ..)
      exact ⟨hbuild.identity, hbuild.multicast, hbuild.waiting⟩
    · rename_i m _ _ hm
      rw [hm] at hbuild
      cases h
      exact hbuild

/-- What a step must not do to our subscription. -/
structure KeepsOwnGroup (pr : Primitives) (networkId : UInt64) (e : Entry Node Event Output) : Prop where
  fresh : ∀ now, e.event = .tick now → e.before.OwnGroupFresh networkId now
  likes : ∀ c ∈ e.output.calls, c.ListsOwnGroup pr networkId

theorem step_ownGroup {networkId : UInt64} {ours : ByteVec 5} {e : Entry Node Event Output}
    (h : step pr e.before e.event = .ok (e.after, e.output)) (hok : KeepsOwnGroup pr networkId e)
    (hnot : ∀ data fromAddr now, e.event ≠ .receive data fromAddr now)
    (hbefore : e.before.OwnGroup networkId ours) : e.after.OwnGroup networkId ours := by
  obtain ⟨n, event, o, n'⟩ := e
  simp only at h hnot hbefore ⊢
  cases event with
  | receive data fromAddr now => exact absurd rfl (hnot data fromAddr now)
  | tick now =>
    obtain ⟨rfl, -⟩ := Prod.mk.inj (Except.ok.inj h)
    exact (hbefore.expire (hok.fresh now rfl)).of_undisturbed (Node.undisturbed_tick pr n now)
  | outboundFrame id ethertype payload now =>
    obtain ⟨⟨m, actions⟩, hm, heq⟩ := bind_eq_ok h
    cases heq
    rcases Node.processOutboundFrame_steady pr hm with hsteady | rfl
    · exact hbefore.of_steady hsteady
    · exact hbefore
  | loadMoon moon =>
    obtain ⟨r, -, heq⟩ := bind_eq_ok h
    cases r <;> · cases heq; exact hbefore
  | bootstrap now =>
    obtain ⟨rfl, -⟩ := Prod.mk.inj (Except.ok.inj h)
    exact hbefore.of_steady (Node.steady_bootstrap pr n now)
  | flushConfigRequests now =>
    obtain ⟨rfl, -⟩ := Prod.mk.inj (Except.ok.inj h)
    exact hbefore.of_undisturbed (Node.undisturbed_flushConfigRequests pr n now)
  | sendWhois addresses now =>
    obtain ⟨rfl, -⟩ := Prod.mk.inj (Except.ok.inj h)
    exact hbefore.of_steady (Node.steady_sendWhois pr n addresses now)
  | respondConfig requesterAddress requestPacketId id dictData credentials fromAddr =>
    obtain ⟨m, hm, heq⟩ := bind_eq_ok h
    cases heq
    exact hbefore.of_undisturbed (undisturbed_respondConfig hm)
  | joinNetwork membership =>
    obtain ⟨rfl, -⟩ := Prod.mk.inj (Except.ok.inj h)
    unfold Node.joinNetwork
    split
    · exact hbefore
    · exact ⟨hbefore.1, MulticastManager.listens_subscribe _ _ _ hbefore.2⟩
  | _ =>
    obtain ⟨rfl, -⟩ := Prod.mk.inj (Except.ok.inj h)
    exact hbefore

theorem step_tick {n n' : Node} {now : UInt64} {o : Output} (h : step pr n (.tick now) = .ok (n', o)) :
    n' = (n.tick pr now).1 ∧ o.actions = (n.tick pr now).2 := by
  obtain ⟨hn, ho⟩ := Prod.mk.inj (Except.ok.inj h)
  refine ⟨hn.symm, ?_⟩
  rw [← ho]

/-- Joining a network subscribes to its ARP group. -/
theorem ownGroup_joinNetwork {n : Node} {membership : NetworkMembership}
    (hfresh : n.findNetwork membership.networkId = none) :
    (n.joinNetwork membership).OwnGroup membership.networkId n.address := by
  have hnew : ¬ (n.networks.any fun net => net.networkId = membership.networkId) = true := by
    simpa [Node.findNetwork] using hfresh
  unfold Node.joinNetwork
  rw [if_neg hnew]
  refine ⟨rfl, ?_⟩
  unfold MulticastManager.listens
  rw [MulticastManager.subscribersOf_subscribe, if_pos rfl, MulticastManager.mem_addresses_renew]
  exact .inl rfl

/-- From when a network is joined, as long as no tick finds our subscription too old and no
MULTICAST_LIKE in our own name leaves it out: the node listens to the network's ARP group
all the time, and every tick that is due sends our groups to every other member and asks
it for the group's subscribers. -/
theorem run_stays_subscribed (pr : Primitives) (n₀ n : Node) (membership : NetworkMembership)
    (t : List (Entry Node Event Output)) (hfresh : n₀.findNetwork membership.networkId = none)
    (hrun : NodeRun pr (n₀.joinNetwork membership) t n)
    (hkeeps : ∀ e ∈ t, KeepsOwnGroup pr membership.networkId e) :
    n.multicastManager.listens (arpMulticastGroup membership.networkId) n.address ∧
    ∀ e ∈ t, e.before.multicastManager.listens (arpMulticastGroup membership.networkId) e.before.address ∧
      ∀ now, e.event = .tick now → ∀ net ∈ e.before.networks, net.networkId = membership.networkId →
        ∀ member ∈ net.members, member.ztAddress ≠ e.before.address →
          (Node.multicastLikeInterval ≤ satSub now net.lastMulticastLike →
            ∃ groups, arpMulticastGroup membership.networkId ∈ groups ∧
              Node.Reached pr e.after now member.ztAddress .multicastLike (MulticastLikePayload.serialize groups)
                e.output.actions) ∧
          (Node.multicastGatherInterval ≤ satSub now net.lastMulticastGather →
            Node.Reached pr e.after now member.ztAddress .multicastGather
              (Node.gatherPayload membership.networkId (arpMulticastGroup membership.networkId))
              e.output.actions) := by
  have hstart := ownGroup_joinNetwork hfresh
  have hinv := Node.ownGroup_invariant pr membership.networkId n₀.address
  have hstep : ∀ e : Entry Node Event Output, step pr e.before e.event = .ok (e.after, e.output) →
      KeepsOwnGroup pr membership.networkId e → e.before.OwnGroup membership.networkId n₀.address →
      e.after.OwnGroup membership.networkId n₀.address := fun e he hok hbefore =>
    (step_invariant hinv (KeepsOwnGroup pr membership.networkId)
      (fun e he hok hnot hbefore => step_ownGroup he hok hnot hbefore) he hok hok.likes hbefore).1
  have hend := hrun.invariant _ _ hstep hstart hkeeps
  have hall := Run.forall_entries (Node.OwnGroup membership.networkId n₀.address)
    (KeepsOwnGroup pr membership.networkId) (fun e => e.before.OwnGroup membership.networkId n₀.address)
    (fun e he hok hbefore => ⟨hstep e he hok hbefore, hbefore⟩) hrun hstart hkeeps
  refine ⟨by rw [hend.1]; exact hend.2, fun e he => ?_⟩
  obtain ⟨haddress, hlistens⟩ := hall e he
  refine ⟨by rw [haddress]; exact hlistens, fun now hevent net hnet hid member hmember hother => ?_⟩
  have hthis := hrun.steps e he
  rw [hevent] at hthis
  obtain ⟨hafter, hout⟩ := step_tick hthis
  have hexpired := (hall e he).expire ((hkeeps e he).fresh now hevent)
  have htells := Node.tick_tells pr hexpired net hnet hid member hmember (haddress ▸ hother)
  rw [hafter, hout]
  exact htells

/-- The network of the worked examples with root number 3 for a member. -/
def arpMembership : NetworkMembership :=
  { NetworkMembership.new Sample.networkId 2800 with
    members := [⟨(Sample.identity 3).address.bytes, Ethernet.broadcastMac, none, none, true⟩] }

/-- A tick 40 seconds after the clock began. -/
theorem run_stays_subscribed_tick : ∃ n t, NodeRun Sample.primitives (Sample.start.joinNetwork arpMembership) t n ∧
    n.multicastManager.listens (arpMulticastGroup Sample.networkId) n.address := by
  let n := Sample.start.joinNetwork arpMembership
  have htick : step Sample.primitives n (.tick 40000) =
      .ok ((n.tick Sample.primitives 40000).1, ⟨(n.tick Sample.primitives 40000).2, []⟩) := rfl
  have hrun := Run.one htick
  refine ⟨_, _, hrun, (run_stays_subscribed Sample.primitives Sample.start _ arpMembership _ (by decide) hrun ?_).1⟩
  intro e he
  obtain rfl := List.mem_singleton.mp he
  refine ⟨fun now hevent => ?_, fun c hc => by cases hc⟩
  obtain rfl : 40000 = now := Event.tick.inj hevent
  have hyoung : ((Sample.start.joinNetwork arpMembership).multicastManager.subscribersOf
      (arpMulticastGroup Sample.networkId)).all (fun s =>
        satSub 40000 s.subscribedAt ≤ Node.multicastSubscriptionMaxAge) = true := by decide
  exact fun s hs _ => of_decide_eq_true (List.all_eq_true.mp hyoung s hs)

/-- A tick later than that takes the subscription, and the network is still joined. -/
theorem tick_unsubscribes : ¬ ∀ (pr : Primitives) (n₀ n : Node) (membership : NetworkMembership) (now : UInt64)
    (o : Output), n₀.findNetwork membership.networkId = none →
    step pr (n₀.joinNetwork membership) (.tick now) = .ok (n, o) →
    (n.findNetwork membership.networkId).isSome = true →
    n.multicastManager.listens (arpMulticastGroup membership.networkId) n.address := by
  intro hall
  set n₁ := Sample.start.joinNetwork arpMembership with hn₁
  have hlistens := hall Sample.primitives Sample.start (n₁.tick Sample.primitives 100000).1 arpMembership 100000 _
    (by decide) rfl (by decide +kernel)
  have hquiet := Node.undisturbed_tick Sample.primitives n₁ 100000
  unfold MulticastManager.listens at hlistens
  rw [hquiet.multicast] at hlistens
  have hgone : ((n₁.expire 100000).multicastManager.subscribersOf (arpMulticastGroup Sample.networkId)) = [] := by
    decide
  rw [show arpMembership.networkId = Sample.networkId from rfl, hgone] at hlistens
  cases hlistens

end Service

end ManyTier
