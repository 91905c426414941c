import ManyTier.Node.Peers

/-! Which paths of a peer are called direct.

A path is called direct where a packet is received, by whether its sender's address is a
root's, and again by three handlers, by the hop count. The handler comes last: what it
says of the path is what stays (`DirectOnly.addPath_justHeard`). -/
namespace ManyTier

namespace Peer

/-- Whether the peer has a direct path to an address. -/
def directAt (p : Peer) (addr : SocketAddr) : Bool := p.paths.any fun q => q.address = addr && q.isDirect

/-- Something that holds of the address of every direct path. -/
def DirectOnly (K : SocketAddr → Prop) (p : Peer) : Prop := ∀ q ∈ p.paths, q.isDirect = true → K q.address

theorem directAt_iff {p : Peer} {addr : SocketAddr} :
    p.directAt addr = true ↔ ∃ q ∈ p.paths, q.address = addr ∧ q.isDirect = true := by
  simp [directAt]

theorem DirectOnly.of_directAt {p : Peer} {K : SocketAddr → Prop} (h : ∀ addr, p.directAt addr = true → K addr) :
    p.DirectOnly K := fun q hq hdirect => h _ (directAt_iff.mpr ⟨q, hq, rfl, hdirect⟩)

variable {K : SocketAddr → Prop} {p p' : Peer}

theorem DirectOnly.congr (h : p.DirectOnly K) (hpaths : p'.paths = p.paths) : p'.DirectOnly K := by
  unfold DirectOnly
  rw [hpaths]
  exact h

theorem DirectOnly.addPath (h : p.DirectOnly K) {addr : SocketAddr} {isDirect : Bool} (now : UInt64)
    (hdirect : isDirect = true → K addr) : (p.addPath addr isDirect now).DirectOnly K := by
  unfold Peer.addPath
  intro q hq hq'
  split at hq
  · rcases mem_modifyFirst hq with hold | ⟨old, hold, rfl⟩
    · exact h q hold hq'
    · have haddr : old.address = addr := by simpa using List.find?_some hold
      exact haddr ▸ hdirect hq'
  · rcases List.mem_append.mp hq with hold | hnew
    · exact h q hold hq'
    · obtain rfl := List.mem_singleton.mp hnew
      exact hdirect hq'

theorem DirectOnly.promotePath (h : p.DirectOnly K) {addr : SocketAddr} (now : UInt64) (hdirect : K addr) :
    (p.promotePath addr now).DirectOnly K := by
  unfold Peer.promotePath
  split
  · intro q hq hq'
    rcases mem_modifyFirst hq with hold | ⟨old, hold, rfl⟩
    · exact h q hold hq'
    · have haddr : old.address = addr := by simpa using List.find?_some hold
      exact haddr ▸ hdirect
  · exact h.addPath now fun _ => hdirect

/-- The paths of a peer heard from. -/
theorem paths_heardFrom (relayed : Bool) (addr : SocketAddr) (now : UInt64) :
    (Node.heardFrom relayed addr now p).paths =
      (if relayed then p.addPath addr false now else p.promotePath addr now).paths := by
  unfold Node.heardFrom
  simp only
  split <;> rfl

theorem DirectOnly.heardFrom (h : p.DirectOnly K) {relayed : Bool} {addr : SocketAddr} (now : UInt64)
    (hdirect : relayed = false → K addr) : (Node.heardFrom relayed addr now p).DirectOnly K := by
  refine DirectOnly.congr ?_ (paths_heardFrom relayed addr now)
  split
  · exact h.addPath now fun hno => by cases hno
  · rename_i hrelayed
    exact h.promotePath now (hdirect (by simpa using hrelayed))

/-- A peer whose paths are those of one heard from at an address just now. -/
def JustHeard (K : SocketAddr → Prop) (addr : SocketAddr) (p : Peer) : Prop :=
  ∃ p₀ relayed now, p₀.DirectOnly K ∧ p.paths = (Node.heardFrom relayed addr now p₀).paths

/-- A path to the address is there, and it is the first match that was updated, or it is new. -/
theorem JustHeard.paths {addr : SocketAddr} (h : p.JustHeard K addr) :
    ∃ p₀ : Peer, p₀.DirectOnly K ∧
      ((p₀.paths.any (·.address = addr) = true ∧ ∃ f : Path → Path, (∀ q, (f q).address = q.address) ∧
        p.paths = modifyFirst (·.address = addr) f p₀.paths) ∨
      (p₀.paths.any (·.address = addr) = false ∧ ∃ q : Path, q.address = addr ∧ p.paths = p₀.paths ++ [q])) := by
  obtain ⟨p₀, relayed, now, hp₀, hpaths⟩ := h
  refine ⟨p₀, hp₀, ?_⟩
  rw [hpaths, paths_heardFrom]
  by_cases hknown : p₀.paths.any (·.address = addr) = true
  · refine .inl ⟨hknown, ?_⟩
    cases relayed with
    | true =>
      refine ⟨fun q => { q.received now with isDirect := false }, fun _ => rfl, ?_⟩
      rw [if_pos rfl, Peer.addPath, if_pos hknown]
    | false =>
      refine ⟨fun q => { q with isDirect := true }.received now, fun _ => rfl, ?_⟩
      rw [if_neg Bool.false_ne_true, Peer.promotePath, if_pos hknown]
  · have hnone : p₀.paths.any (·.address = addr) = false := by simpa using hknown
    refine .inr ⟨hnone, ?_⟩
    cases relayed with
    | true =>
      refine ⟨{ Path.new addr now with isDirect := false }, rfl, ?_⟩
      rw [if_pos rfl, Peer.addPath, if_neg hknown]
    | false =>
      refine ⟨{ Path.new addr now with isDirect := true }, rfl, ?_⟩
      rw [if_neg Bool.false_ne_true, Peer.promotePath, if_neg hknown, Peer.addPath, if_neg hknown]

/-- A handler's word on the path replaces what was noted when the packet was received. -/
theorem DirectOnly.addPath_justHeard {addr : SocketAddr} (h : p.JustHeard K addr) {isDirect : Bool} (now : UInt64)
    (hdirect : isDirect = true → K addr) : (p.addPath addr isDirect now).DirectOnly K := by
  obtain ⟨p₀, hp₀, ⟨hknown, f, hf, hpaths⟩ | ⟨hnone, new, hnew, hpaths⟩⟩ := h.paths
  · have hkeeps : ∀ q : Path, decide (q.address = addr) = true → decide ((f q).address = addr) = true := by
      intro q hq
      rw [hf q]
      exact hq
    intro q hq hq'
    rw [Peer.addPath, hpaths, any_modifyFirst hkeeps, if_pos hknown] at hq
    rcases mem_modifyFirst_twice hkeeps hq with hold | ⟨old, hold, rfl⟩
    · exact hp₀ q hold hq'
    · have haddr : (f old).address = addr := of_decide_eq_true (hkeeps old hold)
      show K (f old).address
      rw [haddr]
      exact hdirect hq'
  · intro q hq hq'
    have hmatch : decide (new.address = addr) = true := decide_eq_true hnew
    have hany : (p₀.paths ++ [new]).any (·.address = addr) = true := by simp [hnew]
    rw [Peer.addPath, hpaths, if_pos hany] at hq
    simp only [modifyFirst_append hnone hmatch] at hq
    rcases List.mem_append.mp hq with hold | hlast
    · exact hp₀ q hold hq'
    · obtain rfl := List.mem_singleton.mp hlast
      show K new.address
      rw [hnew]
      exact hdirect hq'

/-! ### A world's roots and the timer -/

/-- A root's entry has the endpoints listed for it. -/
theorem directOnly_rootPeer {root : WorldRoot}
    (h : ∀ endpoint ∈ root.endpoints, ∀ addr, endpoint.toSocketAddr = some addr → K addr) :
    (Topology.rootPeer root).DirectOnly K := by
  unfold Topology.rootPeer
  refine List.foldlRecOn root.endpoints _ (fun q hq => by cases hq) fun p hp endpoint hendpoint => ?_
  split
  · rename_i addr haddr
    exact hp.addPath 0 fun _ => h endpoint hendpoint addr haddr
  · exact hp

end Peer

/-- The timer calls no path direct. -/
theorem directOnly_timerKeeps (K : ByteVec 5 → SocketAddr → Prop) : TimerKeeps fun a p => p.DirectOnly (K a) where
  greeted := by
    intro a p packetId target now hp q hq hdirect
    have hpaths : (p.onHelloSent packetId now).paths = p.paths := by
      unfold Peer.onHelloSent
      split <;> rfl
    have hq' : q ∈ modifyFirst (·.address = target) (·.sent now) (p.onHelloSent packetId now).paths := hq
    rw [hpaths] at hq'
    rcases mem_modifyFirst hq' with hold | ⟨old, hold, rfl⟩
    · exact hp q hold hdirect
    · exact hp old (List.mem_of_find?_eq_some hold) hdirect
  waiting := fun _ _ _ hp => hp
  pushed := fun _ _ _ hp => hp
  stale := by
    intro a p now hp
    refine hp.congr ?_
    unfold Peer.markStale
    split <;> rfl

/-! ### The handlers -/

namespace Node
variable {pr : Primitives} {us : Identity} {worlds : Option World × List World}
  {K : ByteVec 5 → SocketAddr → Prop} {n : Node}

/-- A node that has just noted where a packet came from: the path may be called direct that
the handler has not spoken about yet. -/
def JustNoted (K : ByteVec 5 → SocketAddr → Prop) (source : ByteVec 5) (fromAddr : SocketAddr) (a : ByteVec 5)
    (p : Peer) : Prop := p.DirectOnly (K a) ∨ (a = source ∧ p.JustHeard (K a) fromAddr)

theorem JustNoted.addPath {source a : ByteVec 5} {fromAddr : SocketAddr} {p : Peer} (h : JustNoted K source fromAddr a p)
    {isDirect : Bool} (now : UInt64) (hdirect : isDirect = true → K a fromAddr) :
    (p.addPath fromAddr isDirect now).DirectOnly (K a) := by
  rcases h with hp | ⟨-, hp⟩
  · exact hp.addPath now hdirect
  · exact .addPath_justHeard hp now hdirect

theorem JustNoted.other {source a : ByteVec 5} {fromAddr : SocketAddr} {p : Peer} (h : JustNoted K source fromAddr a p)
    (ha : a ≠ source) : p.DirectOnly (K a) := by
  rcases h with hp | ⟨rfl, -⟩
  · exact hp
  · exact absurd rfl ha

theorem justNoted_noteSource (h : PeersHold us worlds (fun a p => p.DirectOnly (K a)) n) (source : ByteVec 5)
    (fromAddr : SocketAddr) (now : UInt64) :
    PeersHold us worlds (JustNoted K source fromAddr) (n.noteSource source fromAddr now) :=
  h.modifyPeer_to source (fun _ _ _ hp => .inl hp) fun p _ hp => .inr ⟨rfl, p, _, now, hp, rfl⟩

/-- The note alone is right where the address is no other root's only if the path is direct. -/
theorem directOnly_noteSource (h : PeersHold us worlds (fun a p => p.DirectOnly (K a)) n) (source : ByteVec 5)
    (fromAddr : SocketAddr) (now : UInt64)
    (hdirect : (n.topology.getPeer source).isSome = true → n.isRelayed source fromAddr = false → K source fromAddr) :
    PeersHold us worlds (fun a p => p.DirectOnly (K a)) (n.noteSource source fromAddr now) :=
  h.modifyPeer source fun p hp hold => hold.heardFrom now fun hrelayed => hdirect (by rw [hp]; rfl) hrelayed

theorem directOnly_handleOkHello {source : ByteVec 5} {packet : Bytes} {fromAddr : SocketAddr}
    (h : PeersHold us worlds (JustNoted K source fromAddr) n) (hsource : (PacketHeader.read packet).source = source)
    (hdirect : ∀ p, n.topology.getPeer source = some p → arrivedDirectly packet = true → K source fromAddr)
    (timestampEcho now : UInt64) :
    PeersHold us worlds (fun a p => p.DirectOnly (K a)) (n.handleOkHello pr packet timestampEcho fromAddr now) := by
  unfold handleOkHello
  simp only
  rw [hsource]
  refine h.modifyPeer_to source (fun a p ha hp => hp.other ha) fun p hpeer hp => ?_
  -- Starting a session leaves the paths.
  have hsettled : ∀ settled : Peer, settled.paths = p.paths →
      ∀ q ∈ modifyFirst (·.address = fromAddr) (fun path => { path with latencyMs := (satSub now timestampEcho).toUInt32 })
        (settled.addPath fromAddr (arrivedDirectly packet) now).paths, q.isDirect = true → K source q.address := by
    intro settled hpaths q hq hq'
    have hnoted : JustNoted K source fromAddr source settled := by
      rcases hp with hp | ⟨-, p₀, relayed, then', hp₀, hheard⟩
      · exact .inl (hp.congr hpaths)
      · exact .inr ⟨rfl, p₀, relayed, then', hp₀, hpaths.trans hheard⟩
    have hadded := hnoted.addPath now (hdirect p hpeer)
    rcases mem_modifyFirst hq with hold | ⟨old, hold, rfl⟩
    · exact hadded q hold hq'
    · exact hadded old (List.mem_of_find?_eq_some hold) hq'
  split
  · exact hsettled _ rfl
  · exact hsettled _ rfl

theorem directOnly_handlePushDirectPaths {source : ByteVec 5} {packet : Bytes} {fromAddr : SocketAddr}
    {paths : List DirectPath} (h : PeersHold us worlds (JustNoted K source fromAddr) n)
    (hsource : (PacketHeader.read packet).source = source)
    (hparse : PushDirectPathsPayload.deserialize (packet.drop Constants.minPacketLength) = .ok paths)
    (hdirect : ∀ p, n.topology.getPeer source = some p → arrivedDirectly packet = true → K source fromAddr)
    (now : UInt64) :
    PeersHold us worlds (fun a p => p.DirectOnly (K a)) (n.handlePushDirectPaths pr packet fromAddr now) := by
  unfold handlePushDirectPaths
  rw [hparse]
  simp only
  rw [hsource]
  split
  · rename_i hunknown
    refine ⟨h.identity, h.worlds, fun a p hp => (h.each a p hp).other ?_⟩
    rintro rfl
    rw [hunknown] at hp
    cases hp
  · rename_i peer hpeer
    have hadded := h.modifyPeer_to source (f := fun _ => peer.addPath fromAddr (arrivedDirectly packet) now)
      (Q := fun a p => p.DirectOnly (K a)) (fun a p ha hp => hp.other ha)
      fun _ _ _ => (h.each source peer hpeer).addPath now (hdirect peer hpeer)
    exact hadded.onlySends (.foldl _ (fun m target => onlySends_sendProbeHello pr m _ target now) _ _)

/-- A HELLO that is accepted speaks about the path of the identity it carries. -/
theorem directOnly_acceptHello {W : ByteVec 5 → Peer → Prop} {packet : Bytes} {hello : HelloPayload} {secret : Secret}
    {fromAddr : SocketAddr} (h : PeersHold us worlds W n)
    (hnew : W hello.identity.address.bytes (.new { hello.identity with secret := none } false))
    (hother : ∀ a p, a ≠ hello.identity.address.bytes → W a p → p.DirectOnly (K a)) (now packetId : UInt64)
    (hat : ∀ p, W hello.identity.address.bytes p →
      (p.addPath fromAddr (arrivedDirectly packet) now).DirectOnly (K hello.identity.address.bytes)) :
    PeersHold us worlds (fun a p => p.DirectOnly (K a)) (n.acceptHello pr packet hello secret fromAddr now packetId) := by
  have hadded := h.addPeer { hello.identity with secret := none } hnew
  have hgreeted := hadded.modifyPeer_to hello.identity.address.bytes
    (f := fun peer => { peer.addPath fromAddr (arrivedDirectly packet) now with
      state := .newActive pr secret 0 now now })
    (Q := fun a p => p.DirectOnly (K a)) hother fun p _ hp => hat p hp
  exact hgreeted.onlySends (onlySends_sendArmored pr _ ..)

end Node

end ManyTier
