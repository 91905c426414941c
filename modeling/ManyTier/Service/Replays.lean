import ManyTier.Lib.Drain
import ManyTier.Node.Roots
import ManyTier.Service.Fragments

/-! Packets that wait for their source, and the answers that release them.

A packet is only kept for a source that is not known, and a source stays known. So while
an answer to WHOIS is worked through, nothing comes to wait: each call inside it drains
what waits (`Drains`), at any depth, and the packets of a source that is resolved are
taken out before the first of them is received. `Turn` is what the answer did for one of
its identities; the turns, one after the other, are all it did. -/
namespace ManyTier

/-- A packet as it is received: its source, the datagram and where it came from. -/
structure Parcel where
  source : ByteVec 5
  data : Bytes
  sender : SocketAddr

def PendingEncryptedPacket.parcel (w : PendingEncryptedPacket) : Parcel := ⟨w.source, w.data, w.sender⟩

def Call.parcel (c : Call) : Parcel := ⟨(PacketHeader.read c.data).source, c.data, c.fromAddr⟩

/-- What waits at any time: not too much, nothing twice, no fragment, and each packet for
the source it names. -/
structure Waits (l : List PendingEncryptedPacket) : Prop where
  bounded : l.length ≤ Node.pendingEncryptedPacketLimit
  distinct : (l.map fun w => (w.source, w.sender, w.packetId)).Nodup
  whole : ∀ w ∈ l, isFragment w.data = false
  named : ∀ w ∈ l, (PacketHeader.read w.data).source = w.source

theorem Waits.sublist {l l' : List PendingEncryptedPacket} (h : Waits l) (hsub : l'.Sublist l) : Waits l' :=
  ⟨hsub.length_le.trans h.bounded, h.distinct.sublist (hsub.map _), fun w hw => h.whole w (hsub.subset hw),
    fun w hw => h.named w (hsub.subset hw)⟩

namespace Node
variable {pr : Primitives}

/-- One more packet: the oldest goes if there are too many. -/
theorem waits_queue {n : Node} (h : Waits n.pendingEncryptedPackets) {packet : PendingEncryptedPacket}
    (hwhole : isFragment packet.data = false) (hnamed : (PacketHeader.read packet.data).source = packet.source) :
    Waits (n.queuePendingEncryptedPacket packet).pendingEncryptedPackets := by
  unfold queuePendingEncryptedPacket
  simp only
  set kept := n.pendingEncryptedPackets.filter fun p =>
    satSub packet.receivedAt p.receivedAt ≤ pendingEncryptedPacketTtl with hkept
  have hkeptWaits : Waits kept := h.sublist List.filter_sublist
  split
  · exact hkeptWaits
  · rename_i hnew
    -- The room that is made leaves one place.
    set room := if pendingEncryptedPacketLimit ≤ kept.length then kept.tail else kept with hroom
    have hsub : room.Sublist kept := by
      rw [hroom]
      split
      · exact List.tail_sublist kept
      · exact List.Sublist.refl kept
    have hlen : room.length < pendingEncryptedPacketLimit := by
      have hbound := hkeptWaits.bounded
      rw [hroom]
      split
      · rename_i hfull
        have hlimit : pendingEncryptedPacketLimit = 32 := rfl
        rw [List.length_tail]
        omega
      · omega
    have hroomWaits := hkeptWaits.sublist hsub
    refine ⟨?_, ?_, ?_, ?_⟩
    · rw [List.length_append, List.length_singleton]
      exact hlen
    · rw [List.map_append, List.map_singleton]
      refine List.nodup_append.mpr ⟨hroomWaits.distinct, List.nodup_singleton _, ?_⟩
      rintro k hk k' hk' rfl
      obtain rfl := List.mem_singleton.mp hk'
      obtain ⟨w, hw, heq⟩ := List.mem_map.mp hk
      refine hnew (List.any_eq_true.mpr ⟨w, hsub.subset hw, ?_⟩)
      simpa using heq
    · intro w hw
      rcases List.mem_append.mp hw with hw | hw
      · exact hroomWaits.whole w hw
      · obtain rfl := List.mem_singleton.mp hw
        exact hwhole
    · intro w hw
      rcases List.mem_append.mp hw with hw | hw
      · exact hroomWaits.named w hw
      · obtain rfl := List.mem_singleton.mp hw
        exact hnamed

theorem waits_dropUnopened {n : Node} (h : Waits n.pendingEncryptedPackets) {data : Bytes}
    (hwhole : isFragment data = false) (fromAddr : SocketAddr) (now : UInt64) :
    Waits (n.dropUnopened data fromAddr now).pendingEncryptedPackets := by
  unfold dropUnopened
  simp only
  split
  · exact waits_queue h hwhole rfl
  · exact h

/-! ### Sources stay known -/

theorem known_modifyPeer {n : Node} {a : ByteVec 5} (address : ByteVec 5) (f : Peer → Peer)
    (h : (n.topology.getPeer a).isSome = true) : ((n.modifyPeer address f).topology.getPeer a).isSome = true := by
  show ((n.topology.modifyPeer address f).getPeer a).isSome = true
  rw [Topology.getPeer_modifyPeer]
  split
  · rw [Option.isSome_map]
    exact h
  · exact h

theorem known_addPeer {t : Topology} {a : ByteVec 5} (identity : Identity)
    (h : (t.getPeer a).isSome = true ∨ a = identity.address.bytes) : ((t.addPeer identity).getPeer a).isSome = true := by
  rw [Topology.getPeer_addPeer]
  split
  · rfl
  · rename_i hnot
    rcases h with h | ha
    · exact h
    · exact Option.isSome_iff_ne_none.mpr fun hnone => hnot ⟨ha, hnone⟩

theorem known_learnIdentity {n : Node} {a : ByteVec 5} (identity : Identity) (now : UInt64)
    (h : (n.topology.getPeer a).isSome = true ∨ a = identity.address.bytes) :
    ((n.learnIdentity pr identity now).topology.getPeer a).isSome = true := by
  have hadded : ((n.topology.addPeer identity).getPeer a).isSome = true := known_addPeer identity h
  unfold learnIdentity
  simp only
  split
  · rw [(onlySends_sendHello pr _ ..).topology]
    exact hadded
  · exact hadded

/-- No call forgets a peer. -/
theorem known_invariant (a : ByteVec 5) :
    CallInvariant pr (fun _ => True) fun n => (n.topology.getPeer a).isSome = true where
  frame := fun _ _ _ _ h => h
  finished := by
    intro n data fromAddr now n' hadmitted h
    obtain ⟨-, rfl | rfl | rfl⟩ := admitPacket_finished hadmitted
    · exact h
    · rw [(onlySends_handleRelay pr { n with actions := [] } data now).topology]
      exact h
    · unfold dropUnopened
      simp only
      split <;> exact h
  alone := by
    intro c d n' _ hd halone h
    have hnoted : (d.node.topology.getPeer a).isSome = true := by
      rw [Call.dispatched_node hd]
      exact known_modifyPeer _ _ h
    rcases handleAlone_peers pr halone with hkept | ⟨-, rfl⟩ | ⟨-, rfl⟩ | ⟨-, timestampEcho, rfl⟩
    · rw [hkept.topology]
      exact hnoted
    · unfold handleHello
      split
      · exact hnoted
      · split
        · exact hnoted
        · split
          · exact hnoted
          · split
            · exact hnoted
            · unfold acceptHello
              simp only
              rw [(onlySends_sendArmored pr _ ..).topology]
              exact known_modifyPeer _ _ (known_addPeer _ (.inl hnoted))
    · unfold handlePushDirectPaths
      split
      · exact hnoted
      · simp only
        split
        · exact hnoted
        · rename_i peer _
          rw [(OnlySends.foldl _ (fun m target => onlySends_sendProbeHello pr m _ target c.now) _ _).topology]
          exact known_modifyPeer _ _ hnoted
    · exact known_modifyPeer _ _ hnoted
  noted := by
    intro c d _ hd _ _ h
    rw [Call.dispatched_node hd]
    exact known_modifyPeer _ _ h
  learned := fun _ identity now h => known_learnIdentity identity now (.inl h)

/-! ### The answer to WHOIS -/

end Node

/-- Packets received one after the other. Each call starts with nothing queued, and what
it returns goes behind what was queued before it. -/
def Replayed (recv : Receiver) (now : UInt64) : Node → List (PendingEncryptedPacket × Received) → Node → Prop
  | n, [], n' => n' = n
  | n, (w, r) :: rest, n' => recv { n with actions := [] } w.data w.sender (max now w.receivedAt) = .ok r ∧
      Replayed recv now { r.node with actions := n.actions ++ r.actions } rest n'

/-- What an answer to WHOIS did for one of its identities: what it queued itself, and the
packets it handed on, each with what came of it. -/
structure Turn where
  identity : Identity
  before : Node
  greeting : List NodeAction
  replayed : List (PendingEncryptedPacket × Received)
  after : Node

namespace Turn
variable (pr : Primitives) (recv : Receiver) (now : UInt64) (t : Turn)

def accepted : Bool := t.before.identityAlreadyValidated t.identity || t.identity.validateAddress pr

/-- All that was queued, in order. -/
def actions : List NodeAction := t.greeting ++ t.replayed.flatMap (·.2.actions)

/-- All calls that were made, in order. -/
def calls : List Call := t.replayed.flatMap (·.2.calls)

/-- The identity was learned and greeted, and all packets that waited for it were received
in the order they came. -/
structure Taken : Prop where
  greeted : (t.before.learnIdentity pr t.identity now).actions = t.before.actions ++ t.greeting
  handed : t.replayed.map Prod.fst =
    t.before.pendingEncryptedPackets.filter (·.source = t.identity.address.bytes)
  received : Replayed recv now { t.before.learnIdentity pr t.identity now with
    pendingEncryptedPackets := t.before.pendingEncryptedPackets.filter (·.source ≠ t.identity.address.bytes) }
    t.replayed t.after

/-- An identity that is not accepted is passed over. -/
def Made : Prop :=
  if t.accepted pr then t.Taken pr recv now else t.greeting = [] ∧ t.replayed = [] ∧ t.after = t.before

/-- Each turn starts where the one before it ended. -/
def Linked : Node → List Turn → Node → Prop
  | n, [], n' => n' = n
  | n, t :: rest, n' => t.before = n ∧ Linked t.after rest n'

end Turn

namespace Node
variable {pr : Primitives} {recv : Receiver}

/-- From one state of an answer to the next, with the calls made in between: no more waits
than before, and what does not wait any more was handed on. -/
abbrev Releases (before after : Node) (calls : List Call) : Prop :=
  Drains PendingEncryptedPacket.parcel Parcel.source before.pendingEncryptedPackets after.pendingEncryptedPackets
    (calls.map Call.parcel)

/-- What is used of the calls inside an answer. -/
structure Releasing (pr : Primitives) (recv : Receiver) : Prop where
  known : ∀ n data fromAddr now r, recv n data fromAddr now = .ok r → ∀ a,
    (n.topology.getPeer a).isSome = true → (r.node.topology.getPeer a).isSome = true
  waits : ∀ n data fromAddr now r, recv n data fromAddr now = .ok r → Waits n.pendingEncryptedPackets →
    Waits r.node.pendingEncryptedPackets
  releases : ∀ n data fromAddr now r, recv n data fromAddr now = .ok r → Waits n.pendingEncryptedPackets →
    isFragment data = false → (n.topology.getPeer (PacketHeader.read data).source).isSome = true →
    ∃ nested, r.calls = ⟨n, data, fromAddr, now, r.node, r.actions⟩ :: nested ∧ Releases n r.node nested

/-- The packets of one source, taken out and received one after the other. -/
structure Replay (recv : Receiver) (now : UInt64) (source : ByteVec 5) (waiting : List PendingEncryptedPacket)
    (p p' : Progress) (replayed : List (PendingEncryptedPacket × Received)) : Prop where
  handed : replayed.map Prod.fst = waiting
  received : Replayed recv now p.node replayed p'.node
  actions : p'.node.actions = p.node.actions ++ replayed.flatMap (·.2.actions)
  calls : p'.calls = p.calls ++ replayed.flatMap (·.2.calls)
  waits : Waits p'.node.pendingEncryptedPackets
  own : ofKey Parcel.source source ((replayed.flatMap (·.2.calls)).map Call.parcel) =
    waiting.map PendingEncryptedPacket.parcel
  others : Drains PendingEncryptedPacket.parcel Parcel.source p.node.pendingEncryptedPackets
    p'.node.pendingEncryptedPackets (besides Parcel.source source ((replayed.flatMap (·.2.calls)).map Call.parcel))

theorem replay_of_ok (hrecv : Releasing pr recv) {now : UInt64} {source : ByteVec 5}
    {waiting : List PendingEncryptedPacket} {p p' : Progress}
    (h : waiting.foldlM (replayOne recv now) p = .ok p') (hp : Waits p.node.pendingEncryptedPackets)
    (hknown : (p.node.topology.getPeer source).isSome = true)
    (hmine : ∀ w ∈ waiting, isFragment w.data = false ∧ (PacketHeader.read w.data).source = w.source ∧
      w.source = source)
    (hnone : ofKey Parcel.source source (p.node.pendingEncryptedPackets.map PendingEncryptedPacket.parcel) = []) :
    ∃ replayed, Replay recv now source waiting p p' replayed := by
  induction waiting generalizing p with
  | nil =>
    cases h
    exact ⟨[], rfl, rfl, by simp, by simp, hp, rfl, .refl _⟩
  | cons w rest ih =>
    rw [List.foldlM_cons] at h
    obtain ⟨q, hq, hrest⟩ := bind_eq_ok h
    obtain ⟨r, hr, heq⟩ := bind_eq_ok hq
    cases heq
    obtain ⟨⟨hwhole, hnamed, hsource⟩, hothers⟩ := List.forall_mem_cons.mp hmine
    have hthis : ((({ p.node with actions := [] } : Node).topology.getPeer (PacketHeader.read w.data).source).isSome) =
        true := by
      rw [hnamed, hsource]
      exact hknown
    obtain ⟨nested, hcalls, hnested⟩ := hrecv.releases _ _ _ _ r hr hp hwhole hthis
    -- Nothing of this source waits any more, so no call inside this one is for it.
    obtain ⟨hinside, hgone⟩ := hnested.idle hnone
    obtain ⟨replayed, hreplay⟩ := ih hrest (hrecv.waits _ _ _ _ r hr hp) (hrecv.known _ _ _ _ r hr source hknown)
      hothers hgone
    have hown : w.parcel.source = source := hsource
    have hhead : Call.parcel ⟨{ p.node with actions := [] }, w.data, w.sender, max now w.receivedAt, r.node, r.actions⟩ =
        w.parcel := by
      rw [Call.parcel, hnamed]
      rfl
    refine ⟨(w, r) :: replayed, congrArg (w :: ·) hreplay.handed, ⟨hr, hreplay.received⟩, ?_, ?_, hreplay.waits, ?_, ?_⟩
    · rw [hreplay.actions, List.flatMap_cons, List.append_assoc]
    · rw [hreplay.calls, List.flatMap_cons, List.append_assoc]
    · rw [List.flatMap_cons, List.map_append, ofKey_append, hreplay.own, hcalls, List.map_cons, hhead,
        ofKey_cons hown, hinside]
      rfl
    · rw [List.flatMap_cons, List.map_append, besides_append, hcalls, List.map_cons, hhead, besides_cons hown,
        besides_of_none hinside]
      exact Drains.trans hnested hreplay.others

/-- Learning an identity queues nothing but its greeting. -/
theorem actions_learnIdentity (pr : Primitives) (n : Node) (identity : Identity) (now : UInt64) :
    ∃ greeting, (n.learnIdentity pr identity now).actions = n.actions ++ greeting := by
  unfold learnIdentity
  simp only
  split
  · unfold sendHello
    simp only
    split
    · unfold sendArmored
      split
      · exact ⟨_, rfl⟩
      · exact ⟨[], (List.append_nil _).symm⟩
    · exact ⟨[], (List.append_nil _).symm⟩
  · exact ⟨[], (List.append_nil _).symm⟩

/-- What the turns of an answer lead to. -/
structure Answered (pr : Primitives) (recv : Receiver) (now : UInt64) (identities : List Identity) (p p' : Progress)
    (turns : List Turn) : Prop where
  identities : turns.map Turn.identity = identities
  linked : Turn.Linked p.node turns p'.node
  made : ∀ t ∈ turns, t.Made pr recv now
  actions : p'.node.actions = p.node.actions ++ turns.flatMap Turn.actions
  calls : p'.calls = p.calls ++ turns.flatMap Turn.calls
  waits : Waits p'.node.pendingEncryptedPackets
  releases : Releases p.node p'.node (turns.flatMap Turn.calls)
  resolved : ∀ t ∈ turns, t.accepted pr = true →
    ofKey Parcel.source t.identity.address.bytes (p'.node.pendingEncryptedPackets.map PendingEncryptedPacket.parcel) = []

theorem map_parcel_rest (source : ByteVec 5) (l : List PendingEncryptedPacket) :
    (l.filter (·.source ≠ source)).map PendingEncryptedPacket.parcel =
      besides Parcel.source source (l.map PendingEncryptedPacket.parcel) := by
  rw [besides, List.filter_map]
  rfl

/-- Once the packets of a source are taken out, none of it waits. -/
theorem ofKey_rest (source : ByteVec 5) (l : List PendingEncryptedPacket) :
    ofKey Parcel.source source ((l.filter (·.source ≠ source)).map PendingEncryptedPacket.parcel) = [] := by
  rw [map_parcel_rest, ofKey_besides_self]

namespace Answered
variable {now : UInt64} {identity : Identity} {identities : List Identity} {p q p' : Progress} {turns : List Turn}

theorem nil (hp : Waits p.node.pendingEncryptedPackets) : Answered pr recv now [] p p [] :=
  ⟨rfl, rfl, by simp, by simp, by simp, hp, .refl _, by simp⟩

/-- A turn and those after it. -/
theorem cons {t : Turn} (h : Answered pr recv now [identity] p q [t]) (h' : Answered pr recv now identities q p' turns) :
    Answered pr recv now (identity :: identities) p p' (t :: turns) := by
  have hreleases := Drains.trans h.releases h'.releases
  rw [← List.map_append, ← List.flatMap_append] at hreleases
  refine ⟨?_, ?_, List.forall_mem_cons.mpr ⟨h.made t List.mem_cons_self, h'.made⟩, ?_, ?_, h'.waits, hreleases,
    List.forall_mem_cons.mpr ⟨fun haccepted => ?_, h'.resolved⟩⟩
  · rw [List.map_cons, h'.identities, (List.cons.inj h.identities).1]
  · obtain ⟨hbefore, hafter⟩ := h.linked
    exact ⟨hbefore, hafter ▸ h'.linked⟩
  · rw [h'.actions, h.actions, List.append_assoc, ← List.flatMap_append]
    rfl
  · rw [h'.calls, h.calls, List.append_assoc, ← List.flatMap_append]
    rfl
  · exact (h'.releases.idle (h.resolved t List.mem_cons_self haccepted)).2

/-- One identity. -/
theorem one (hrecv : Releasing pr recv) (h : resolveIdentity pr recv now p identity = .ok p')
    (hp : Waits p.node.pendingEncryptedPackets) : ∃ t, Answered pr recv now [identity] p p' [t] := by
  cases haccepted : (p.node.identityAlreadyValidated identity || identity.validateAddress pr) with
  | false =>
    rw [resolveIdentity_invalid haccepted] at h
    cases h
    refine ⟨⟨identity, p.node, [], [], p.node⟩, rfl, ⟨rfl, rfl⟩, ?_, by simp [Turn.actions],
      by simp [Turn.calls], hp, .refl _, ?_⟩
    · intro t ht
      obtain rfl := List.mem_singleton.mp ht
      rw [Turn.Made, Turn.accepted, haccepted]
      exact ⟨rfl, rfl, rfl⟩
    · intro t ht haccepted'
      obtain rfl := List.mem_singleton.mp ht
      rw [Turn.accepted, haccepted] at haccepted'
      cases haccepted'
  | true =>
    rw [resolveIdentity_valid haccepted] at h
    set source := identity.address.bytes with hsource
    have hmine : ∀ w ∈ p.node.pendingEncryptedPackets.filter (·.source = source), isFragment w.data = false ∧
        (PacketHeader.read w.data).source = w.source ∧ w.source = source := by
      intro w hw
      obtain ⟨hmem, hthis⟩ := List.mem_filter.mp hw
      exact ⟨hp.whole w hmem, hp.named w hmem, of_decide_eq_true hthis⟩
    obtain ⟨replayed, hreplay⟩ := replay_of_ok hrecv h (hp.sublist List.filter_sublist)
      (known_learnIdentity identity now (.inr rfl)) hmine (ofKey_rest source _)
    obtain ⟨greeting, hgreeting⟩ := actions_learnIdentity pr p.node identity now
    have hown : ofKey Parcel.source source ((replayed.flatMap (·.2.calls)).map Call.parcel) =
        ofKey Parcel.source source (p.node.pendingEncryptedPackets.map PendingEncryptedPacket.parcel) := by
      rw [hreplay.own, ofKey, List.filter_map]
      rfl
    obtain ⟨hreleases, hgone⟩ := Drains.of_taken List.filter_sublist (map_parcel_rest source _) hown hreplay.others
    refine ⟨⟨identity, p.node, greeting, replayed, p'.node⟩, rfl, ⟨rfl, rfl⟩, ?_, ?_, ?_, hreplay.waits, ?_, ?_⟩
    · intro t ht
      obtain rfl := List.mem_singleton.mp ht
      rw [Turn.Made, Turn.accepted, haccepted]
      exact ⟨hgreeting, hreplay.handed, hreplay.received⟩
    · rw [hreplay.actions, List.flatMap_singleton, Turn.actions, ← List.append_assoc, ← hgreeting]
    · rw [hreplay.calls, List.flatMap_singleton, Turn.calls]
    · rw [List.flatMap_singleton]
      exact hreleases
    · intro t ht _
      obtain rfl := List.mem_singleton.mp ht
      exact hgone

end Answered

/-- Whatever identities an answer has, it did their turns one after the other. -/
theorem answered_of_ok (hrecv : Releasing pr recv) {now : UInt64} {identities : List Identity} {p p' : Progress}
    (h : identities.foldlM (resolveIdentity pr recv now) p = .ok p') (hp : Waits p.node.pendingEncryptedPackets) :
    ∃ turns, Answered pr recv now identities p p' turns := by
  induction identities generalizing p with
  | nil =>
    cases h
    exact ⟨[], .nil hp⟩
  | cons identity rest ih =>
    rw [List.foldlM_cons] at h
    obtain ⟨q, hq, hrest⟩ := bind_eq_ok h
    obtain ⟨t, hone⟩ := Answered.one hrecv hq hp
    obtain ⟨turns, hturns⟩ := ih hrest hone.waits
    exact ⟨t :: turns, hone.cons hturns⟩

/-! ### Calls -/

/-- What a call that is not admitted to a handler leaves waiting. -/
theorem waits_finished {n n' : Node} {data : Bytes} {fromAddr : SocketAddr} {now : UInt64}
    (hadmitted : n.admitPacket pr data fromAddr now = .finished n') (hn : Waits n.pendingEncryptedPackets) :
    Waits n'.pendingEncryptedPackets ∧
      ((n.topology.getPeer (PacketHeader.read data).source).isSome = true →
        n'.pendingEncryptedPackets = n.pendingEncryptedPackets) := by
  obtain ⟨hwhole, rfl | rfl | rfl⟩ := admitPacket_finished hadmitted
  · exact ⟨hn, fun _ => rfl⟩
  · have heq := (onlySends_handleRelay pr { n with actions := [] } data now).pendingEncrypted
    rw [heq]
    exact ⟨hn, fun _ => rfl⟩
  · refine ⟨waits_dropUnopened (n := { n with actions := [] }) hn hwhole fromAddr now, fun hknown => ?_⟩
    unfold dropUnopened
    simp only
    split
    · rename_i hunknown
      rw [Bool.and_eq_true, Option.isNone_iff_eq_none] at hunknown
      rw [hunknown.1] at hknown
      cases hknown
    · rfl

/-- What a handler, or an answer to WHOIS, leaves waiting, and what it hands on. -/
theorem releases_dispatch (hrecv : Releasing pr recv) {n : Node} {data : Bytes} {fromAddr : SocketAddr} {now : UInt64}
    {d : Dispatch} {p : Progress} (hadmitted : n.admitPacket pr data fromAddr now = .dispatch d)
    (h : dispatch pr recv d fromAddr now = .ok p) (hn : Waits n.pendingEncryptedPackets) :
    Waits p.node.pendingEncryptedPackets ∧ Releases n p.node p.calls := by
  obtain ⟨-, -, -, -, -, hnode, -⟩ := admitPacket_dispatch hadmitted
  have hnoted : d.node.pendingEncryptedPackets = n.pendingEncryptedPackets := by rw [hnode]; rfl
  rcases dispatch_cases pr recv h with ⟨-, identities, -, hfold⟩ | ⟨halone, hnil, -⟩
  · obtain ⟨turns, hanswered⟩ := answered_of_ok hrecv hfold (by rw [hnoted]; exact hn)
    have hreleases := hanswered.releases
    rw [Releases, hnoted] at hreleases
    refine ⟨hanswered.waits, ?_⟩
    rw [hanswered.calls]
    exact hreleases
  · have hkept := (waiting_handleAlone halone).trans hnoted
    rw [Releases, hkept, hnil]
    exact ⟨hn, .refl _⟩

theorem releasing_receiveFuel (fuel : Nat) : Releasing pr (receiveFuel pr fuel) := by
  induction fuel with
  | zero =>
    refine ⟨?_, ?_, ?_⟩ <;>
    · intro n data fromAddr now r h
      cases h
  | succ fuel ih =>
    refine ⟨?_, ?_, ?_⟩
    · intro n data fromAddr now r h a hknown
      exact ((known_invariant a).receiveFuel h (fun _ _ => trivial) hknown).1
    · intro n data fromAddr now r h hn
      obtain ⟨p, hp, hr⟩ := bind_eq_ok h
      cases hr
      rcases receiveBody_cases pr _ hp with ⟨-, -, hnode⟩ | ⟨-, -, packet, r, -, hr, rfl⟩ | ⟨n', hadmitted, rfl⟩ |
        ⟨d, hadmitted, hd⟩
      · rcases hnode with hnode | ⟨-, -, hnode⟩
        · rw [hnode]
          exact hn
        · rw [hnode]
          exact hn
      · exact ih.waits _ _ _ _ r hr hn
      · exact (waits_finished hadmitted hn).1
      · exact (releases_dispatch ih hadmitted hd hn).1
    · intro n data fromAddr now r h hn hwhole hknown
      obtain ⟨p, hp, hr⟩ := bind_eq_ok h
      cases hr
      refine ⟨p.calls, rfl, ?_⟩
      rcases receiveBody_cases pr _ hp with ⟨hfrag, -⟩ | ⟨hfrag, -⟩ | ⟨n', hadmitted, rfl⟩ | ⟨d, hadmitted, hd⟩
      · exact absurd hfrag (by simp [hwhole])
      · exact absurd hfrag (by simp [hwhole])
      · show Drains _ _ n.pendingEncryptedPackets n'.pendingEncryptedPackets []
        rw [(waits_finished hadmitted hn).2 hknown]
        exact .refl _
      · exact (releases_dispatch ih hadmitted hd hn).2

variable (pr) in
theorem releasing_receivePacket : Releasing pr (receivePacket pr) :=
  ⟨fun _ _ _ _ => (releasing_receiveFuel _).known _ _ _ _, fun _ _ _ _ => (releasing_receiveFuel _).waits _ _ _ _,
    fun _ _ _ _ => (releasing_receiveFuel _).releases _ _ _ _⟩

/-- In a call at any depth what waits is in order. -/
theorem waits_enters {g g' : Given} (h : Enters pr g g') (hg : Waits g.node.pendingEncryptedPackets) :
    Waits g'.node.pendingEncryptedPackets := by
  induction h with
  | self => exact hg
  | fragment _ _ _ _ ih => exact ih hg
  | @replay n data fromAddr now g d resolved unresolved identity p q earlier later packet hadmitted _ _ hresolved
      _ hwaiting hearlier _ ih =>
    obtain ⟨-, -, -, -, -, hnode, -⟩ := admitPacket_dispatch hadmitted
    have hnoted : Waits d.node.pendingEncryptedPackets := by
      rw [hnode]
      exact hg
    obtain ⟨turns, hanswered⟩ := answered_of_ok (releasing_receivePacket pr) hresolved hnoted
    have hmine : ∀ w ∈ earlier ++ packet :: later, isFragment w.data = false ∧
        (PacketHeader.read w.data).source = w.source ∧ w.source = identity.address.bytes := by
      intro w hw
      rw [← hwaiting] at hw
      obtain ⟨hmem, hthis⟩ := List.mem_filter.mp hw
      exact ⟨hanswered.waits.whole w hmem, hanswered.waits.named w hmem, of_decide_eq_true hthis⟩
    obtain ⟨replayed, hreplay⟩ := replay_of_ok (releasing_receivePacket pr) hearlier
      (hanswered.waits.sublist List.filter_sublist) (known_learnIdentity identity now (.inr rfl))
      (fun w hw => hmine w (List.mem_append_left _ hw)) (ofKey_rest _ _)
    exact ih hreplay.waits

/-- What a call for an answer to WHOIS did: the turns of its identities, and it returned
all that they queued. -/
theorem answered_receivePacket {n : Node} {data : Bytes} {fromAddr : SocketAddr} {now : UInt64} {d : Dispatch}
    {identities : List Identity} {r : Received} (hn : Waits n.pendingEncryptedPackets)
    (hadmitted : n.admitPacket pr data fromAddr now = .dispatch d) (hverb : Verb.fromByte d.verbId = some .ok)
    (hanswer : whoisIdentities d.packet = some identities) (hr : n.receivePacket pr data fromAddr now = .ok r) :
    d.node.actions = [] ∧ d.node.pendingEncryptedPackets = n.pendingEncryptedPackets ∧
      ∃ turns, Answered pr (receivePacket pr) now identities ⟨d.node, []⟩
        ⟨{ r.node with actions := r.actions }, r.calls.tail⟩ turns := by
  rw [receivePacket_eq] at hr
  obtain ⟨p, hp, heq⟩ := bind_eq_ok hr
  cases heq
  unfold receiveBody at hp
  rw [hadmitted] at hp
  obtain ⟨-, -, -, -, -, hnode, -⟩ := admitPacket_dispatch hadmitted
  rcases dispatch_cases pr _ hp with ⟨-, identities', hanswer', hfold⟩ | ⟨-, -, hnot⟩
  · rw [hanswer] at hanswer'
    obtain rfl := Option.some.inj hanswer'
    have hnoted : Waits d.node.pendingEncryptedPackets := by
      rw [hnode]
      exact hn
    obtain ⟨turns, hturns⟩ := answered_of_ok (releasing_receivePacket pr) hfold hnoted
    refine ⟨?_, ?_, turns, hturns⟩ <;> rw [hnode] <;> rfl
  · exact absurd ⟨hverb, by simp [hanswer]⟩ hnot

end Node

/-! ### Runs -/

namespace Service
variable {pr : Primitives}

/-- What waits, in every node that is reached and in every call at any depth of the
datagram it receives next: at most 32 packets, no two with the same source, sender and
id. When a call is for an answer to WHOIS, each identity has its turn, in which all
packets that wait for it are received once and in the order they came; of the others
those that do not wait any more were received inside these calls, and the rest keep
their order; and what the turns queued, one after the other, is what the call returns. -/
theorem run_waiting_released (pr : Primitives) (identity : Identity) (planetData : Bytes) (id : UInt64)
    (start n : Node) (t : List (Entry Node Event Output)) (hstart : Node.new identity planetData id = .ok start)
    (hrun : NodeRun pr start t n) (data : Bytes) (fromAddr : SocketAddr) (now : UInt64) (g : Node.Given)
    (hentered : Node.Enters pr ⟨n, data, fromAddr, now⟩ g) :
    g.node.pendingEncryptedPackets.length ≤ 32 ∧
      (g.node.pendingEncryptedPackets.map fun w => (w.source, w.sender, w.packetId)).Nodup ∧
      ∀ d identities r, g.node.admitPacket pr g.data g.fromAddr g.now = .dispatch d →
        Verb.fromByte d.verbId = some .ok → Node.whoisIdentities d.packet = some identities →
        g.node.receivePacket pr g.data g.fromAddr g.now = .ok r →
        d.node.actions = [] ∧ d.node.pendingEncryptedPackets = g.node.pendingEncryptedPackets ∧
          ∃ turns, Node.Answered pr (Node.receivePacket pr) g.now identities ⟨d.node, []⟩
            ⟨{ r.node with actions := r.actions }, r.calls.tail⟩ turns := by
  have hnew : Waits start.pendingEncryptedPackets := by
    obtain ⟨planet, -, heq⟩ := bind_eq_ok hstart
    cases heq
    exact ⟨Nat.zero_le _, List.nodup_nil, (fun _ hw => nomatch hw), fun _ hw => nomatch hw⟩
  have hreached : Waits n.pendingEncryptedPackets :=
    run_waiting (fun m data fromAddr now => (Node.releasing_receivePacket pr).waits m data fromAddr now) hrun hnew
  have hwaits := Node.waits_enters hentered hreached
  refine ⟨hwaits.bounded, hwaits.distinct, fun d identities r hadmitted hverb hanswer hr => ?_⟩
  exact Node.answered_receivePacket hwaits hadmitted hverb hanswer hr

/-- The answer of root number 2 that resolves number 4. -/
def sampleResolved : Bytes :=
  Sample.sentBy 2 10 .ok (OkPayload.serialize ⟨.whois, 5, .whois [(Sample.identity 4).withoutSecret]⟩)

/-- A packet of number 4 waits, a moon names number 4, and the answer releases the packet. -/
theorem run_waiting_released_moon : ∃ (n : Node) (t : List (Entry Node Event Output)) (d : Dispatch) (r : Received)
    (turns : List Turn), NodeRun Sample.primitives Sample.start t n ∧
    n.pendingEncryptedPackets.length = 1 ∧ r.node.pendingEncryptedPackets = [] ∧
    n.receivePacket Sample.primitives sampleResolved (Sample.endpoint 22) 1010 = .ok r ∧
    d.node.pendingEncryptedPackets = n.pendingEncryptedPackets ∧
    Node.Answered Sample.primitives (Node.receivePacket Sample.primitives) 1010 [(Sample.identity 4).withoutSecret]
      ⟨d.node, []⟩ ⟨{ r.node with actions := r.actions }, r.calls.tail⟩ turns := by
  have hcheck : okWith (do
      let ran ← runAll (step Sample.primitives) Sample.start
        [.receive (Sample.sentBy 4 9 .nop []) (Sample.endpoint 20) 1000, .loadMoon Topology.sampleMoon]
      let r ← ran.2.receivePacket Sample.primitives sampleResolved (Sample.endpoint 22) 1010
      return (ran, r)) (fun done =>
        done.1.2.pendingEncryptedPackets.length = 1 ∧ done.2.node.pendingEncryptedPackets = [] ∧
        (Call.dispatched Sample.primitives
          ⟨done.1.2, sampleResolved, Sample.endpoint 22, 1010, done.1.2, []⟩).any fun d =>
            Verb.fromByte d.verbId = some .ok ∧
              Node.whoisIdentities d.packet = some [(Sample.identity 4).withoutSecret]) = true := by
    decide +kernel
  obtain ⟨⟨⟨t, n⟩, r⟩, hdone, hall⟩ := exists_of_okWith hcheck
  obtain ⟨ran, hran, hdone⟩ := bind_eq_ok hdone
  obtain ⟨r', hr, heq⟩ := bind_eq_ok hdone
  cases heq
  obtain ⟨hone, hnone, hdispatched⟩ := of_decide_eq_true hall
  obtain ⟨d, hd, hanswer⟩ := (Option.any_eq_true _ _).mp hdispatched
  obtain ⟨hverb, hids⟩ := of_decide_eq_true hanswer
  have hrun := run_runAll hran
  obtain ⟨-, -, hreleased⟩ := run_waiting_released Sample.primitives _ _ _ _ n t Sample.new_start hrun
    sampleResolved (Sample.endpoint 22) 1010 _ (.self _)
  obtain ⟨-, hwaiting, turns, hturns⟩ := hreleased d _ r (Call.dispatched_eq_some.mp hd) hverb hids hr
  exact ⟨n, t, d, r, turns, hrun, hone, hnone, hr, hwaiting, hturns⟩

end Service

end ManyTier
