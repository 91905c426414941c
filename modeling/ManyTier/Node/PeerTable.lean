import ManyTier.Node.RootFlags
import ManyTier.Node.Timers
import ManyTier.Service.Machine

/-! The peer table and the root set of a node, whatever is done to it.

Every entry of the table stands under the address of its peer, lists no path twice and
waits between its HELLOs for one second at least and thirty at most (`Peer.Sound`), and
the root set is the one its worlds give it (`Topology.RootSet`). What a node receives, its
timer and its frames keep the worlds and the roots, and forget nobody (`KeepsRoots`);
moons that are loaded and unloaded change them as they do in a topology on its own. So
both hold in every run (`run_sound`). -/
namespace ManyTier

/-! ### Peers -/

namespace Peer

/-- How long a peer waits before it is greeted again, while it has not answered. -/
def retryBackoff (p : Peer) : Option UInt64 :=
  match p.state with
  | .helloSent _ _ retryBackoffMs => some retryBackoffMs
  | .stale _ retryBackoffMs _ => some retryBackoffMs
  | _ => none

/-- A peer under its own address, each of its paths once, its wait within the limits. -/
structure Sound (a : ByteVec 5) (p : Peer) : Prop where
  filed : p.identity.address.bytes = a
  paths : (p.paths.map Path.address).Nodup
  backoff : ∀ ms, p.retryBackoff = some ms → Constants.pathHelloRateLimit ≤ ms ∧ ms ≤ helloRetryBackoffMax

theorem clampBackoff_bounds (ms : UInt64) :
    Constants.pathHelloRateLimit ≤ clampBackoff ms ∧ clampBackoff ms ≤ helloRetryBackoffMax :=
  ⟨le_max_left .., max_le (by decide) (min_le_right ..)⟩

namespace Sound
variable {a : ByteVec 5} {p p' : Peer}

theorem congr (h : p.Sound a) (hid : p'.identity = p.identity) (hpaths : p'.paths.map Path.address = p.paths.map Path.address)
    (hbackoff : ∀ ms, p'.retryBackoff = some ms →
      p.retryBackoff = some ms ∨ Constants.pathHelloRateLimit ≤ ms ∧ ms ≤ helloRetryBackoffMax) : p'.Sound a :=
  ⟨(congrArg (·.address.bytes) hid).trans h.filed, hpaths.symm ▸ h.paths, fun ms hms => (hbackoff ms hms).elim (h.backoff ms) id⟩

/-- A change that leaves the state. -/
theorem same (h : p.Sound a) (hid : p'.identity = p.identity) (hpaths : p'.paths.map Path.address = p.paths.map Path.address)
    (hstate : p'.state = p.state) : p'.Sound a :=
  h.congr hid hpaths fun ms hms => .inl (by rw [retryBackoff, ← hstate]; exact hms)

/-- A change to a state in which nothing is waited for, or for the least time. -/
theorem state (h : p.Sound a) (state : PeerState)
    (hstate : ∀ ms, ({ p with state } : Peer).retryBackoff = some ms →
      Constants.pathHelloRateLimit ≤ ms ∧ ms ≤ helloRetryBackoffMax) :
    Sound a { p with state } := h.congr rfl rfl fun ms hms => .inr (hstate ms hms)

theorem new (identity : Identity) (isRoot : Bool) : (Peer.new identity isRoot).Sound identity.address.bytes :=
  ⟨rfl, List.nodup_nil, fun _ h => nomatch h⟩

/-- A change to a path found by its address leaves the addresses. -/
theorem modifyPath (h : p.Sound a) (addr : SocketAddr) {f : Path → Path} (hf : ∀ q, (f q).address = q.address) :
    Sound a { p with paths := modifyFirst (·.address = addr) f p.paths } :=
  h.same rfl (map_modifyFirst _ fun q _ => hf q) rfl

theorem addPath (h : p.Sound a) (addr : SocketAddr) (isDirect : Bool) (now : UInt64) : (p.addPath addr isDirect now).Sound a := by
  unfold Peer.addPath
  split
  · exact h.modifyPath addr fun _ => rfl
  · rename_i hnew
    have hnew' : addr ∉ p.paths.map Path.address := by simpa using hnew
    refine ⟨h.filed, ?_, h.backoff⟩
    show ((p.paths ++ [_]).map Path.address).Nodup
    rw [List.map_append, List.nodup_append]
    refine ⟨h.paths, List.nodup_singleton _, fun x hx y hy hxy => ?_⟩
    obtain rfl : y = addr := List.mem_singleton.mp hy
    exact hnew' (hxy ▸ hx)

theorem promotePath (h : p.Sound a) (addr : SocketAddr) (now : UInt64) : (p.promotePath addr now).Sound a := by
  unfold Peer.promotePath
  split
  · exact h.modifyPath addr fun _ => rfl
  · exact h.addPath addr true now

theorem heardFrom (h : p.Sound a) (relayed : Bool) (fromAddr : SocketAddr) (now : UInt64) :
    (Node.heardFrom relayed fromAddr now p).Sound a := by
  have hpath : Sound a (if relayed then p.addPath fromAddr false now else p.promotePath fromAddr now) := by
    split
    · exact h.addPath fromAddr false now
    · exact h.promotePath fromAddr now
  unfold Node.heardFrom
  simp only
  split
  · exact hpath.state _ fun _ h => nomatch h
  · exact hpath

theorem onHelloSent (h : p.Sound a) (packetId now : UInt64) : (p.onHelloSent packetId now).Sound a := by
  unfold Peer.onHelloSent
  split
  · exact h.state _ fun _ h => nomatch h
  · exact h.state _ fun ms hms => Option.some.inj hms ▸ clampBackoff_bounds _
  · exact h.state _ fun ms hms => Option.some.inj hms ▸ clampBackoff_bounds _
  · exact h.state _ fun ms hms => Option.some.inj hms ▸ (by decide)

theorem markStale (h : p.Sound a) (now : UInt64) : (p.markStale now).Sound a := by
  unfold Peer.markStale
  split
  · exact h.state _ fun ms hms => Option.some.inj hms ▸ (by decide)
  · exact h

theorem rootPeer (root : WorldRoot) : (Topology.rootPeer root).Sound root.identity.address.bytes := by
  unfold Topology.rootPeer
  have hnew : (Peer.new { root.identity with secret := none } true).Sound root.identity.address.bytes :=
    new { root.identity with secret := none } true
  generalize Peer.new { root.identity with secret := none } true = p at hnew ⊢
  induction root.endpoints generalizing p with
  | nil => exact hnew
  | cons endpoint rest ih =>
    rw [List.foldl_cons]
    refine ih _ ?_
    split
    · exact hnew.addPath _ true 0
    · exact hnew

end Sound

/-- What the timer does to a peer leaves it sound. -/
theorem timerKeeps_sound : TimerKeeps fun a p => p.Sound a where
  greeted _ _ packetId target now hp := (hp.onHelloSent packetId now).modifyPath target fun _ => rfl
  waiting _ _ _ hp := hp.state _ fun ms hms => Option.some.inj hms ▸ (by decide)
  pushed _ _ _ hp := hp.same rfl rfl rfl
  stale _ _ now hp := hp.markStale now

end Peer

/-! ### Roots -/

/-- The worlds and the roots are the same, and nobody is forgotten. -/
structure KeepsRoots (n n' : Node) : Prop where
  worlds : n'.topology.worlds = n.topology.worlds
  roots : n'.topology.roots = n.topology.roots
  known : ∀ a, (n.topology.getPeer a).isSome = true → (n'.topology.getPeer a).isSome = true

namespace KeepsRoots
variable {pr : Primitives} {n n' n'' : Node}

theorem refl (n : Node) : KeepsRoots n n := ⟨rfl, rfl, fun _ h => h⟩

theorem trans (h : KeepsRoots n n') (h' : KeepsRoots n' n'') : KeepsRoots n n'' :=
  ⟨h'.worlds.trans h.worlds, h'.roots.trans h.roots, fun a ha => h'.known a (h.known a ha)⟩

theorem of_topology (h : n'.topology = n.topology) : KeepsRoots n n' := by
  refine ⟨?_, ?_, fun a ha => ?_⟩
  · rw [h]
  · rw [h]
  · rw [h]
    exact ha

theorem onlySends (h : OnlySends n n') : KeepsRoots n n' := .of_topology h.topology

theorem actions (n : Node) (actions : List NodeAction) : KeepsRoots n { n with actions } := .of_topology rfl

theorem modifyPeer (n : Node) (address : ByteVec 5) (f : Peer → Peer) : KeepsRoots n (n.modifyPeer address f) := by
  refine ⟨rfl, rfl, fun a ha => ?_⟩
  show ((n.topology.modifyPeer address f).getPeer a).isSome = true
  rw [Topology.getPeer_modifyPeer]
  split
  · rw [Option.isSome_map]
    exact ha
  · exact ha

theorem addPeer (n : Node) (identity : Identity) : KeepsRoots n { n with topology := n.topology.addPeer identity } := by
  refine ⟨n.topology.worlds_addPeer identity, n.topology.roots_addPeer identity, fun a ha => ?_⟩
  show ((n.topology.addPeer identity).getPeer a).isSome = true
  rw [Topology.getPeer_addPeer]
  split
  · rfl
  · exact ha

theorem timerRel : TimerRel KeepsRoots where
  refl := .refl
  trans := .trans
  sends h := .onlySends h
  peer n address f := .modifyPeer n address f
  peers n f := by
    refine ⟨rfl, rfl, fun a ha => ?_⟩
    show ((n.topology.peers.mapEntries f).get? a).isSome = true
    rw [SortedMap.get?_mapEntries, Option.isSome_map]
    exact ha
  asked _ _ := ⟨rfl, rfl, fun _ h => h⟩
  networks _ _ _ := .of_topology rfl
  gathers _ _ := .of_topology rfl

theorem learnIdentity (n : Node) (identity : Identity) (now : UInt64) : KeepsRoots n (n.learnIdentity pr identity now) := by
  have hadded : KeepsRoots n { n with topology :=
      { n.topology.addPeer identity with
        pendingWhois := (n.topology.addPeer identity).pendingWhois.erase identity.address.bytes } } :=
    (addPeer n identity).trans ⟨rfl, rfl, fun _ h => h⟩
  unfold Node.learnIdentity
  simp only
  split
  · exact hadded.trans (.onlySends (Node.onlySends_sendHello pr _ ..))
  · exact hadded

theorem noteSource (n : Node) (source : ByteVec 5) (fromAddr : SocketAddr) (now : UInt64) :
    KeepsRoots n (n.noteSource source fromAddr now) := .modifyPeer ..

theorem handleHello (n : Node) (packet : Bytes) (fromAddr : SocketAddr) (now packetId : UInt64) :
    KeepsRoots n (n.handleHello pr packet fromAddr now packetId) := by
  unfold Node.handleHello
  split
  · exact .refl n
  · split
    · exact .refl n
    · split
      · exact .refl n
      · split
        · exact .refl n
        · exact ((addPeer n _).trans (.modifyPeer ..)).trans (.onlySends (Node.onlySends_sendArmored pr _ ..))

theorem handlePushDirectPaths (n : Node) (packet : Bytes) (fromAddr : SocketAddr) (now : UInt64) :
    KeepsRoots n (n.handlePushDirectPaths pr packet fromAddr now) := by
  unfold Node.handlePushDirectPaths
  split
  · exact .refl n
  · simp only
    split
    · exact .refl n
    · exact (modifyPeer n ..).trans (.onlySends (.foldl _ (fun m target => Node.onlySends_sendProbeHello pr m _ target now) _ _))

theorem handleAlone {d : Dispatch} {fromAddr : SocketAddr} {now : UInt64} (h : Node.handleAlone pr d fromAddr now = .ok n') :
    KeepsRoots d.node n' := by
  rcases Node.handleAlone_peers pr h with hkept | ⟨-, rfl⟩ | ⟨-, rfl⟩ | ⟨-, timestampEcho, rfl⟩
  · exact .of_topology hkept.topology
  · exact .handleHello ..
  · exact .handlePushDirectPaths ..
  · exact .modifyPeer ..

theorem finished {data : Bytes} {fromAddr : SocketAddr} {now : UInt64}
    (h : n.admitPacket pr data fromAddr now = .finished n') : KeepsRoots n n' := by
  have hclear : KeepsRoots n { n with actions := [] } := .of_topology rfl
  obtain ⟨-, rfl | rfl | rfl⟩ := Node.admitPacket_finished h
  · exact hclear
  · exact hclear.trans (.onlySends (Node.onlySends_handleRelay pr _ ..))
  · unfold Node.dropUnopened
    simp only
    split
    · exact hclear.trans (.of_topology rfl)
    · exact hclear

end KeepsRoots

/-! ### Soundness -/

/-- The node is who it was, its peers are sound, and its roots are those of its worlds. -/
structure Node.Sound (us : Identity) (planet : World) (n : Node) : Prop where
  peers : PeersHold us n.topology.worlds (fun a p => p.Sound a) n
  roots : Topology.RootSet planet n.topology

namespace Node.Sound
variable {pr : Primitives} {us : Identity} {planet : World} {n n' : Node}

theorem rootSet (h : n.Sound us planet) (hkept : KeepsRoots n n') : Topology.RootSet planet n'.topology := by
  obtain ⟨hplanet, hmoons⟩ := Prod.mk.inj hkept.worlds
  refine ⟨hplanet.trans h.roots.loaded, hkept.roots ▸ h.roots.nodup, fun a => ?_, fun a ha => ?_⟩
  · rw [hkept.roots, hmoons]
    exact h.roots.exact a
  · exact hkept.known a (h.roots.entries a (hkept.roots ▸ ha))

/-- What keeps the roots and the peers' soundness keeps the node sound. -/
theorem keeps (h : n.Sound us planet) (hkept : KeepsRoots n n')
    (hpeers : PeersHold us n.topology.worlds (fun a p => p.Sound a) n') : n'.Sound us planet := by
  refine ⟨?_, h.rootSet hkept⟩
  rw [hkept.worlds]
  exact hpeers

theorem noteSource (h : n.Sound us planet) (source : ByteVec 5) (fromAddr : SocketAddr) (now : UInt64) :
    (n.noteSource source fromAddr now).Sound us planet :=
  h.keeps (.noteSource ..) (h.peers.modifyPeer source fun _ _ hp => hp.heardFrom _ _ _)

theorem handleHello (h : n.Sound us planet) (packet : Bytes) (fromAddr : SocketAddr) (now packetId : UInt64) :
    (n.handleHello pr packet fromAddr now packetId).Sound us planet := by
  refine h.keeps (.handleHello ..) ?_
  unfold Node.handleHello
  split
  · exact h.peers
  · split
    · exact h.peers
    · split
      · exact h.peers
      · split
        · exact h.peers
        · rename_i hello _ _ _ _ _ _ _
          refine PeersHold.onlySends ?_ (Node.onlySends_sendArmored pr _ ..)
          refine (h.peers.addPeer { hello.identity with secret := none } (.new _ false)).modifyPeer _ fun p _ hp => ?_
          exact (hp.addPath fromAddr (Node.arrivedDirectly packet) now).state _ fun _ h => nomatch h

theorem handleOkHello (h : n.Sound us planet) (packet : Bytes) (timestampEcho : UInt64) (fromAddr : SocketAddr)
    (now : UInt64) : (n.handleOkHello pr packet timestampEcho fromAddr now).Sound us planet := by
  refine h.keeps (.modifyPeer ..) (h.peers.modifyPeer _ fun p _ hp => ?_)
  refine Peer.Sound.modifyPath (Peer.Sound.addPath ?_ fromAddr (Node.arrivedDirectly packet) now) fromAddr fun _ => rfl
  split
  · exact hp.state _ fun _ h => nomatch h
  · exact hp

theorem handlePushDirectPaths (h : n.Sound us planet) (packet : Bytes) (fromAddr : SocketAddr) (now : UInt64) :
    (n.handlePushDirectPaths pr packet fromAddr now).Sound us planet := by
  refine h.keeps (.handlePushDirectPaths ..) ?_
  unfold Node.handlePushDirectPaths
  split
  · exact h.peers
  · simp only
    split
    · exact h.peers
    · rename_i peer hpeer
      have hpaths := h.peers.modifyPeer (PacketHeader.read packet).source (f := fun _ =>
        peer.addPath fromAddr (Node.arrivedDirectly packet) now) fun p _ _ => (h.peers.each _ _ hpeer).addPath _ _ _
      exact hpaths.onlySends (.foldl _ (fun m target => Node.onlySends_sendProbeHello pr m _ target now) _ _)

/-- No call makes a node unsound, and none loads or unloads a world. -/
theorem calls (us : Identity) (planet : World) (moons : List World) : Node.CallInvariant pr (fun _ => True) fun n =>
    n.Sound us planet ∧ n.topology.moons = moons := by
  have hmoons : ∀ {n n' : Node}, KeepsRoots n n' → n.topology.moons = moons → n'.topology.moons = moons :=
    fun hkept hn => (congrArg Prod.snd hkept.worlds).trans hn
  have hclear : ∀ n : Node, n.Sound us planet → ({ n with actions := [] } : Node).Sound us planet :=
    fun n h => h.keeps (.of_topology rfl) (h.peers.congr rfl rfl rfl)
  have hnoted : ∀ (c : Call) d, c.dispatched pr = some d → c.before.Sound us planet ∧ c.before.topology.moons = moons →
      d.node.Sound us planet ∧ d.node.topology.moons = moons := by
    intro c d hd h
    rw [Call.dispatched_node hd]
    exact ⟨(hclear c.before h.1).noteSource _ _ _, h.2⟩
  refine ⟨fun n _ _ _ h => ⟨h.1.keeps (.of_topology rfl) (h.1.peers.congr rfl rfl rfl), h.2⟩, ?_, ?_,
    fun c d _ hd _ _ h => hnoted c d hd h, ?_⟩
  · intro n data fromAddr now n' hadmitted h
    have hkept := KeepsRoots.finished hadmitted
    exact ⟨h.1.keeps hkept (h.1.peers.finished hadmitted), hmoons hkept h.2⟩
  · intro c d n' _ hd halone h
    obtain ⟨hsound, hsame⟩ := hnoted c d hd h
    have hkept := KeepsRoots.handleAlone halone
    refine ⟨?_, hmoons hkept hsame⟩
    rcases Node.handleAlone_peers pr halone with hpeers | ⟨-, rfl⟩ | ⟨-, rfl⟩ | ⟨-, echo, rfl⟩
    · exact hsound.keeps hkept (hsound.peers.keepsPeers hpeers)
    · exact hsound.handleHello ..
    · exact hsound.handlePushDirectPaths ..
    · exact hsound.handleOkHello ..
  · intro n identity now h
    have hkept : KeepsRoots n (n.learnIdentity pr identity now) := .learnIdentity ..
    exact ⟨h.1.keeps hkept (h.1.peers.learnIdentity identity now (.new identity false)), hmoons hkept h.2⟩

end Node.Sound

/-! ### Runs -/

namespace Service
variable {pr : Primitives} {us : Identity} {planet : World}

/-- The steps that neither receive nor load or unload a moon keep the roots. -/
theorem step_keepsRoots {n n' : Node} {e : Event} {o : Output} (h : step pr n e = .ok (n', o))
    (hnot : ∀ data fromAddr now, e ≠ .receive data fromAddr now) (hload : ∀ moon, e ≠ .loadMoon moon)
    (hunload : ∀ moonId, e ≠ .unloadMoon moonId) : KeepsRoots n n' := by
  cases e with
  | receive data fromAddr now => exact absurd rfl (hnot data fromAddr now)
  | loadMoon moon => exact absurd rfl (hload moon)
  | unloadMoon moonId => exact absurd rfl (hunload moonId)
  | outboundFrame networkId ethertype payload now =>
    obtain ⟨⟨m, actions⟩, hm, heq⟩ := bind_eq_ok h
    cases heq
    exact .of_topology (Node.keeps_processOutboundFrame pr hm).1.topology
  | tick now =>
    obtain ⟨rfl, -⟩ := Prod.mk.inj (Except.ok.inj h)
    have hexpired : KeepsRoots n (n.expire now) := .of_topology rfl
    exact (hexpired.trans (KeepsRoots.timerRel.timer pr n now)).trans (.actions _ [])
  | bootstrap now =>
    obtain ⟨rfl, -⟩ := Prod.mk.inj (Except.ok.inj h)
    exact ((KeepsRoots.actions n []).trans (KeepsRoots.timerRel.firstHellos pr _ now (n.rootTargets false))).trans (.actions _ [])
  | flushConfigRequests now =>
    obtain ⟨rfl, -⟩ := Prod.mk.inj (Except.ok.inj h)
    exact ((KeepsRoots.actions n []).trans (KeepsRoots.timerRel.queueConfigRequests pr _ now)).trans (.actions _ n.actions)
  | sendWhois addresses now =>
    obtain ⟨rfl, -⟩ := Prod.mk.inj (Except.ok.inj h)
    exact .onlySends (Node.onlySends_sendWhois pr n addresses now)
  | respondConfig requesterAddress requestPacketId networkId dictData credentials fromAddr =>
    obtain ⟨m, hm, heq⟩ := bind_eq_ok h
    cases heq
    exact .onlySends (onlySends_respondConfig pr hm)
  | joinNetwork membership =>
    obtain ⟨rfl, -⟩ := Prod.mk.inj (Except.ok.inj h)
    refine .of_topology ?_
    unfold Node.joinNetwork
    split <;> rfl
  | _ =>
    obtain ⟨rfl, -⟩ := Prod.mk.inj (Except.ok.inj h)
    exact .of_topology rfl

/-- What a step does to the moons: nothing, or it loads one, or unloads one. -/
def MoonsAfter (pr : Primitives) (e : Entry Node Event Output) : Prop :=
  e.after.topology.moons = e.before.topology.moons ∨
  (∃ moon, e.event = .loadMoon moon ∧ moon.verifySignature pr = .ok (.ok ()) ∧
    e.after.topology.moons = e.before.topology.moons ++ [moon]) ∨
  ∃ moonId, e.event = .unloadMoon moonId ∧ e.after.topology.moons = e.before.topology.moons.eraseP (·.id = moonId)

theorem step_sound {e : Entry Node Event Output} (h : step pr e.before e.event = .ok (e.after, e.output))
    (hn : e.before.Sound us planet) : e.after.Sound us planet ∧ MoonsAfter pr e := by
  by_cases hload : ∃ moon, e.event = .loadMoon moon
  · obtain ⟨moon, hevent⟩ := hload
    rw [hevent] at h
    obtain ⟨r, hr, heq⟩ := bind_eq_ok h
    cases r with
    | error err =>
      obtain ⟨hafter, -⟩ := Prod.mk.inj (Except.ok.inj heq)
      rw [← hafter]
      exact ⟨hn, .inl (by rw [← hafter])⟩
    | ok topology =>
      obtain ⟨hafter, -⟩ := Prod.mk.inj (Except.ok.inj heq)
      obtain ⟨verified, hverified, htopology⟩ := bind_eq_ok hr
      cases verified with
      | error err => cases htopology
      | ok _ =>
        obtain rfl := Except.ok.inj (Except.ok.inj htopology)
        have htaken : e.before.topology.takeMoon pr moon =
            .ok ({ moon.roots.foldl Topology.addRoot e.before.topology with
              moons := (moon.roots.foldl Topology.addRoot e.before.topology).moons ++ [moon] }, .ok ()) := by
          rw [Topology.takeMoon, hverified]
          rfl
        obtain ⟨hroots, -, hmoons⟩ := hn.roots.takeMoon htaken
        have hpeers := hn.peers.addRoots moon.roots fun root _ => Peer.Sound.rootPeer root
        rw [← hafter]
        refine ⟨⟨⟨hpeers.identity, rfl, hpeers.each⟩, hroots⟩, .inr (.inl ⟨moon, hevent, hverified, ?_⟩)⟩
        rw [← hafter]
        exact hmoons rfl
  · by_cases hunload : ∃ moonId, e.event = .unloadMoon moonId
    · obtain ⟨moonId, hevent⟩ := hunload
      rw [hevent] at h
      obtain ⟨hafter, -⟩ := Prod.mk.inj (Except.ok.inj h)
      obtain ⟨hroots, hmoons⟩ := hn.roots.unloadMoon moonId
      have hpeers : (e.before.topology.unloadMoon moonId).1.peers = e.before.topology.peers := by
        unfold Topology.unloadMoon
        split <;> rfl
      refine ⟨?_, .inr (.inr ⟨moonId, hevent, by rw [← hafter]; exact hmoons⟩)⟩
      rw [← hafter]
      refine ⟨⟨hn.peers.identity, rfl, fun a peer hpeer => ?_⟩, hroots⟩
      rw [Topology.getPeer, hpeers] at hpeer
      exact hn.peers.each a peer hpeer
    · have hload' : ∀ moon, e.event ≠ .loadMoon moon := fun moon heq => hload ⟨moon, heq⟩
      have hunload' : ∀ moonId, e.event ≠ .unloadMoon moonId := fun moonId heq => hunload ⟨moonId, heq⟩
      have hother : ∀ e' : Entry Node Event Output, step pr e'.before e'.event = .ok (e'.after, e'.output) →
          e'.event = e.event → (∀ data fromAddr now, e'.event ≠ .receive data fromAddr now) →
          e'.before.Sound us planet ∧ e'.before.topology.moons = e.before.topology.moons →
          e'.after.Sound us planet ∧ e'.after.topology.moons = e.before.topology.moons := by
        intro e' he' hevent hnot hbefore
        rw [← hevent] at hload' hunload'
        have hkept := step_keepsRoots he' hnot hload' hunload'
        have hpeers := step_peersHold Peer.timerKeeps_sound he' hnot hload' hunload' hbefore.1.peers
        exact ⟨hbefore.1.keeps hkept hpeers, (congrArg Prod.snd hkept.worlds).trans hbefore.2⟩
      obtain ⟨⟨hsound, hmoons⟩, -⟩ := step_invariant (Node.Sound.calls us planet e.before.topology.moons)
        (fun e' => e'.event = e.event) hother h rfl (fun _ _ => trivial) ⟨hn, rfl⟩
      exact ⟨hsound, .inl hmoons⟩

theorem new_sound {identity : Identity} {planetData : Bytes} {id : UInt64} {start : Node}
    (h : Node.new identity planetData id = .ok start) :
    ∃ planet, World.deserialize planetData = .ok planet ∧ start.Sound identity planet ∧ start.topology.moons = [] := by
  obtain ⟨planet, hplanet, heq⟩ := bind_eq_ok h
  have hid : start.identity = identity := by
    cases heq
    rfl
  have htopology : start.topology = Topology.new.loadPlanet planet := by
    cases heq
    rfl
  have hnone : PeersHold identity (none, []) (fun a p => p.Sound a) { start with topology := Topology.new } :=
    ⟨hid, rfl, fun _ _ hpeer => nomatch hpeer⟩
  have hpeers := hnone.addRoots planet.roots fun root _ => Peer.Sound.rootPeer root
  have hmoons : (Topology.new.loadPlanet planet).moons = [] := (Topology.foldl_addRoot Topology.new planet.roots).2.2.2.2
  refine ⟨planet, hplanet, ⟨⟨hid, rfl, fun a peer hpeer => ?_⟩, ?_⟩, by rw [htopology]; exact hmoons⟩
  · rw [htopology] at hpeer
    exact hpeers.each a peer hpeer
  · rw [htopology]
    exact Topology.rootSet_loadPlanet planet .empty .empty

/-- **In every run** the node is who it was, every peer stands under its own address with
each of its paths once and waits within the limits, the roots are those of the planet and
of the moons that are loaded, each with an entry, and the moons change by loads that are
accepted and by unloads alone. -/
theorem run_sound (pr : Primitives) (identity : Identity) (planetData : Bytes) (id : UInt64) {start n : Node}
    {t : List (Entry Node Event Output)} (hnew : Node.new identity planetData id = .ok start) (hrun : NodeRun pr start t n) :
    ∃ planet, World.deserialize planetData = .ok planet ∧ n.Sound identity planet ∧
      ∀ e ∈ t, e.after.Sound identity planet ∧ MoonsAfter pr e := by
  obtain ⟨planet, hplanet, hstart, -⟩ := new_sound hnew
  refine ⟨planet, hplanet, ?_, ?_⟩
  · exact hrun.invariant (fun m => m.Sound identity planet) (fun _ => True) (fun _ he _ hb => (step_sound he hb).1) hstart
      fun _ _ => trivial
  · exact hrun.forall_entries (fun m => m.Sound identity planet) (fun _ => True) _
      (fun _ he _ hb => ⟨(step_sound he hb).1, step_sound he hb⟩) hstart fun _ _ => trivial

/-- A node greets its roots and loads a moon. -/
theorem run_sound_moon : ∃ t n planet, NodeRun Sample.primitives Sample.start t n ∧ t.length = 2 ∧
    n.topology.moons.map World.id = [7] ∧ n.Sound (Sample.identity 1) planet := by
  have hcheck : okWith (runAll (step Sample.primitives) Sample.start [.bootstrap 1000, .loadMoon Topology.sampleMoon]) (fun r =>
      r.1.length = 2 && r.2.topology.moons.map World.id = [7]) = true := by
    decide +kernel
  obtain ⟨⟨t, n⟩, hruns, hall⟩ := exists_of_okWith hcheck
  rw [Bool.and_eq_true, decide_eq_true_eq, decide_eq_true_eq] at hall
  obtain ⟨planet, -, hsound, -⟩ := run_sound Sample.primitives (Sample.identity 1) Sample.planet.serialize 1 Sample.new_start
    (run_runAll hruns)
  exact ⟨t, n, planet, run_runAll hruns, hall.1, hall.2, hsound⟩

end Service

end ManyTier
