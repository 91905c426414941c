import ManyTier.Node.Calls

/-! What the timer does, said once for every relation.

The timer changes a node in few ways: it sends, sets something of a peer or of a
membership, or replaces what it has asked for. A relation between nodes that these respect
holds between a node whose timer has expired what was due and the node at the end of the
timer (`TimerRel.timer`); the first HELLOs and the requests for configurations are parts
of it. -/
namespace ManyTier

/-- The ways in which the timer changes a node respect the relation. -/
structure TimerRel (R : Node → Node → Prop) : Prop where
  refl : ∀ n, R n n
  trans : ∀ {a b c}, R a b → R b c → R a c
  sends : ∀ {n n'}, OnlySends n n' → R n n'
  peer : ∀ (n : Node) address f, R n (n.modifyPeer address f)
  peers : ∀ (n : Node) f, R n { n with topology := { n.topology with peers := n.topology.peers.mapEntries f } }
  asked : ∀ (n : Node) asked, R n { n with topology := { n.topology with pendingWhois := asked } }
  networks : ∀ (n : Node) networks, networks.map NetworkMembership.config = n.networks.map NetworkMembership.config →
    R n { n with networks }
  gathers : ∀ (n : Node) gathers, R n { n with pendingMulticastGathers := gathers }

namespace TimerRel
variable {R : Node → Node → Prop} (h : TimerRel R) (pr : Primitives) (n : Node)
include h

theorem foldl {α : Type} (f : Node → α → Node) (hf : ∀ m x, R m (f m x)) (l : List α) (n : Node) : R n (l.foldl f n) := by
  induction l generalizing n with
  | nil => exact h.refl n
  | cons x rest ih => exact h.trans (hf n x) (ih _)

theorem network (networkId : UInt64) {f : NetworkMembership → NetworkMembership}
    (hf : ∀ net, (f net).config = net.config) : R n (n.modifyNetwork networkId f) :=
  h.networks n _ (map_modifyFirst _ fun net _ => hf net)

/-! ### Greetings -/

theorem greet (address : ByteVec 5) (target : SocketAddr) (now : UInt64) (remember : Peer → Peer) :
    R n (n.greet pr address target now remember) := by
  unfold Node.greet
  simp only
  split
  · exact h.refl n
  · split
    · exact h.trans (h.sends (Node.onlySends_sendArmored pr n ..)) (h.peer ..)
    · exact h.refl n

theorem greetAll (targets : List (ByteVec 5 × SocketAddr)) (now packetId : UInt64) :
    R n (n.greetAll pr targets now packetId) :=
  h.foldl _ (fun m _ => h.greet pr m ..) _ _

theorem pushDirectPaths (now : UInt64) : R n (n.pushDirectPaths pr now) := by
  unfold Node.pushDirectPaths
  split
  · exact h.refl n
  · refine h.foldl _ (fun m target => ?_) _ _
    unfold Node.pushDirectPathsTo
    split
    · exact h.refl m
    · exact h.trans (h.sends (Node.onlySends_sendEncrypted pr m ..)) (h.peer ..)

theorem keepAlive (now : UInt64) : R n (n.keepAlive pr now) :=
  h.trans (h.trans (h.trans (h.greetAll pr n ..) (h.greetAll pr _ ..)) (h.pushDirectPaths pr _ now)) (h.greetAll pr _ ..)

theorem greetings (now : UInt64) : R (n.expire now) (n.greetings pr now) := by
  have hstale : R (n.expire now) ((n.expire now).markStalePeers now) := h.peers _ _
  exact h.trans (h.trans hstale (h.keepAlive pr _ now)) (h.greetAll pr _ _ now now)

theorem firstHellos (now : UInt64) (targets : List (ByteVec 5 × SocketAddr)) :
    R n (targets.foldl (Node.firstHello pr now) n) :=
  h.foldl _ (fun m _ => h.greet pr m ..) _ _

/-! ### Configurations -/

theorem requestConfig (now networkId : UInt64) : R n (Node.requestConfig pr now n networkId) := by
  unfold Node.requestConfig
  simp only
  split
  · exact h.refl n
  · split
    · unfold Node.requestController
      split
      · exact h.trans (h.asked n _) (h.sends (Node.onlySends_pushAction _ rfl))
      · exact h.refl n
    · split
      · exact h.refl n
      · exact h.trans (h.sends (Node.onlySends_sendEncrypted pr n ..)) (h.network _ _ fun _ => rfl)

theorem queueConfigRequests (now : UInt64) : R n (n.queueConfigRequests pr now) := by
  unfold Node.queueConfigRequests
  refine h.trans (h.networks n _ ?_) (h.foldl _ (fun m id => h.requestConfig pr m now id) _ _)
  rw [List.map_map]
  refine List.map_congr_left fun net _ => ?_
  rw [Function.comp_apply]
  split <;> rfl

/-! ### Multicast -/

theorem foldl_fst {α : Type} (f : Node.Multicasting → α → Node.Multicasting) (hf : ∀ m x, R m.1 (f m x).1)
    (l : List α) (m : Node.Multicasting) : R m.1 (l.foldl f m).1 := by
  induction l generalizing m with
  | nil => exact h.refl _
  | cons x rest ih => exact h.trans (hf m x) (ih _)

theorem toPeer (now : UInt64) {send : Node → ByteVec 5 → Secret → SocketAddr → Node}
    (hsend : ∀ m address secret target, R m (send m address secret target)) (m : Node.Multicasting)
    (address : ByteVec 5) : R m.1 (Node.toPeer now send m address).1 := by
  unfold Node.toPeer
  split
  · exact hsend ..
  · exact h.refl _

theorem sendLikes (now : UInt64) (m : Node.Multicasting) (net : NetworkMembership) :
    R m.1 (Node.sendLikes pr now m net).1 := by
  unfold Node.sendLikes
  refine h.trans ?_ (h.foldl_fst _ (h.toPeer now fun m address secret target => ?_) _ _)
  · exact h.network m.1 _ fun _ => rfl
  · exact h.sends (Node.onlySends_sendEncrypted pr m ..)

theorem sendGathers (now : UInt64) (m : Node.Multicasting) (net : NetworkMembership × List MulticastGroup) :
    R m.1 (Node.sendGathers pr now m net).1 := by
  unfold Node.sendGathers
  refine h.trans ?_ (h.foldl_fst _ (h.toPeer now fun m address secret target => ?_) _ _)
  · exact h.network m.1 _ fun _ => rfl
  · refine h.foldl _ (fun m group => ?_) _ m
    obtain ⟨asked, hgather⟩ := Node.sendGather_eq pr m net.1.networkId now address secret target group
    rw [hgather]
    exact h.trans (h.sends (Node.onlySends_sendEncrypted pr m ..)) (h.gathers _ _)

theorem multicastRound (now : UInt64) : R n (n.multicastRound pr now) := by
  unfold Node.multicastRound
  simp only
  set likes := List.foldl (Node.sendLikes pr now) (n, []) _
  set done := List.foldl (Node.sendGathers pr now) likes _
  have hlikes : R n likes.1 := h.foldl_fst _ (h.sendLikes pr now) _ (n, [])
  have hdone : R n done.1 := h.trans hlikes (h.foldl_fst _ (h.sendGathers pr now) _ likes)
  split
  · exact hdone
  · exact h.trans hdone (h.sends (Node.onlySends_pushAction _ rfl))

/-- From what is left after the expiry to the end. -/
theorem timer (now : UInt64) :
    R (n.expire now) (((n.greetings pr now).queueConfigRequests pr now).multicastRound pr now) :=
  h.trans (h.trans (h.greetings pr n now) (h.queueConfigRequests pr _ now)) (h.multicastRound pr _ now)

end TimerRel

/-! ### Frames -/

/-- The timer has nothing for the host. -/
theorem timerRel_frames :
    TimerRel fun n n' => n'.actions.filter NodeAction.isForHost = n.actions.filter NodeAction.isForHost where
  refl _ := rfl
  trans h h' := h'.trans h
  sends h := h.frames
  peer _ _ _ := rfl
  peers _ _ := rfl
  asked _ _ := rfl
  networks _ _ _ := rfl
  gathers _ _ := rfl

theorem Node.isForHost_tick (pr : Primitives) (n : Node) (now : UInt64) : ∀ a ∈ (n.tick pr now).2, a.isForHost = false := by
  have hframes := timerRel_frames.timer pr n now
  rw [show (n.expire now).actions = [] from rfl, List.filter_nil, List.filter_eq_nil_iff] at hframes
  exact fun a ha => Bool.eq_false_iff.mpr (hframes a ha)

end ManyTier
