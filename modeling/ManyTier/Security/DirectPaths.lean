import ManyTier.Node.PathFlags
import ManyTier.Security.SessionKeys

/-! Which paths may be called direct.

A direct path is one that an authenticated packet of the peer has come along without a
hop, or an endpoint that a world lists. What is received is noted under that name before
any handler has looked at the hop count or at who sent it: a packet from an address that
is no other root's makes the path direct (`Call.takenForDirect`), and only three handlers
correct that afterwards. `run_direct` says what is needed for the name to be true. -/
namespace ManyTier

namespace Topology

/-- The addresses that worlds list for their roots. -/
def listed (worlds : Option World × List World) : List SocketAddr :=
  (worlds.1.toList ++ worlds.2).flatMap fun world => world.roots.flatMap fun root =>
    root.endpoints.filterMap InetAddress.toSocketAddr

/-- The endpoints of the planet and of the moons that are loaded. -/
def endpoints (t : Topology) : List SocketAddr := listed t.worlds

theorem mem_listed (worlds : Option World × List World) {world : World} (hworld : world ∈ worlds.1.toList ++ worlds.2)
    {root : WorldRoot} (hroot : root ∈ world.roots) {endpoint : InetAddress} (hendpoint : endpoint ∈ root.endpoints)
    {addr : SocketAddr} (haddr : endpoint.toSocketAddr = some addr) : addr ∈ listed worlds := by
  refine List.mem_flatMap.mpr ⟨world, hworld, List.mem_flatMap.mpr ⟨root, hroot, ?_⟩⟩
  exact List.mem_filterMap.mpr ⟨endpoint, hendpoint, haddr⟩

end Topology

/-- Whether a node calls a path of a peer direct. -/
def Node.directAt (n : Node) (a : ByteVec 5) (addr : SocketAddr) : Bool :=
  (n.topology.getPeer a).any (·.directAt addr)

namespace Call
variable (pr : Primitives) (c : Call)

/-- The peer whose path the handler of a packet decides about, by the hop count. -/
def decidesFor : Option (ByteVec 5) :=
  (c.dispatched pr).bind fun d =>
    match Verb.fromByte d.verbId with
    | some .hello => (c.helloAccepted pr).map (·.address.bytes)
    | some .ok =>
      match OkPayload.deserialize (d.packet.drop Constants.minPacketLength) with
      | .ok ⟨_, _, .hello _ _ _ _ _ _⟩ => some d.source
      | _ => none
    | some .pushDirectPaths =>
      if (PushDirectPathsPayload.deserialize (d.packet.drop Constants.minPacketLength)).isOk then some d.source
      else none
    | _ => none

/-- Whether the path a packet came along is called direct once it is handled, for its
source: the handler says so, else that the address is no other root's does. -/
def takenForDirect : Bool :=
  if c.decidesFor pr = some (PacketHeader.read c.data).source then Node.arrivedDirectly c.data
  else ! c.before.isRelayed (PacketHeader.read c.data).source c.fromAddr

/-- Whether a packet is authenticated as a peer's: it was opened under what is held for its
source, or it is a HELLO that is accepted from an identity. -/
def provenFrom (a : ByteVec 5) : Bool :=
  ((PacketHeader.read c.data).source = a && (c.before.dearmor pr c.data).isSome) ||
    (c.helloAccepted pr).any (·.address.bytes = a)

/-- An authenticated packet from a peer that came from an address without a hop. -/
def directFrom (a : ByteVec 5) (addr : SocketAddr) : Bool :=
  (c.dispatched pr).isSome && c.fromAddr = addr && Node.arrivedDirectly c.data && c.provenFrom pr a

/-- A packet that makes a path direct has come without a hop, and it is authenticated, or
the path is an endpoint or has been used so before. -/
def DirectSound (heard : ByteVec 5 → SocketAddr → Prop) : Prop :=
  ∀ d peer, c.dispatched pr = some d → c.before.topology.getPeer d.source = some peer →
    c.takenForDirect pr = true → peer.directAt c.fromAddr = false →
    Node.arrivedDirectly c.data = true ∧ (c.provenFrom pr d.source = true ∨
      c.fromAddr ∈ c.before.topology.endpoints ∨ heard d.source c.fromAddr)

/-- What a packet leaves by itself, before others that waited for it are received. -/
def settled : Option Node :=
  (c.dispatched pr).bind fun d => (Node.handleAlone pr d c.fromAddr c.now).toOption

variable {pr c}

/-- For a packet that releases no others, that is what the call leaves. -/
theorem Made.after_settled (hmade : c.Made pr) {d : Dispatch} (hd : c.dispatched pr = some d)
    (hnot : ¬ (Verb.fromByte d.verbId = some .ok ∧ (Node.whoisIdentities d.packet).isSome)) :
    ∃ n', c.settled pr = some n' ∧ c.after = { n' with actions := [] } := by
  obtain ⟨recv, p, hp, hafter, -⟩ := hmade
  have hadmitted := dispatched_eq_some.mp hd
  unfold Node.receiveBody at hp
  rw [hadmitted] at hp
  rcases Node.dispatch_cases pr recv hp with ⟨hverb, identities, hids, -⟩ | ⟨halone, -, -⟩
  · exact absurd ⟨hverb, by simp [hids]⟩ hnot
  · exact ⟨p.node, by rw [settled, hd, Option.bind_some, halone]; rfl, hafter⟩

/-! ### One packet -/

/-- A HELLO is not accepted, or it is with the identity it carries. -/
theorem handleHello_cases {d : Dispatch} (hd : c.dispatched pr = some d) (hverb : Verb.fromByte d.verbId = some .hello) :
    (c.helloAccepted pr = none ∧ d.node.handleHello pr d.packet c.fromAddr c.now d.packetId = d.node) ∨
    ∃ hello secret, c.helloAccepted pr = some hello.identity ∧
      d.node.handleHello pr d.packet c.fromAddr c.now d.packetId =
        d.node.acceptHello pr d.packet hello secret c.fromAddr c.now d.packetId := by
  have hopens : ∀ hello, d.node.helloOpens pr d.packet hello = c.before.helloOpens pr d.packet hello := by
    intro hello
    rw [dispatched_node hd]
    rfl
  unfold helloAccepted Node.handleHello
  rw [hd, Option.bind_some, if_neg (not_not.mpr hverb)]
  cases HelloPayload.deserialize (d.packet.drop Constants.minPacketLength) with
  | error e => exact .inl ⟨rfl, rfl⟩
  | ok parsed =>
    obtain ⟨hello, rest⟩ := parsed
    simp only [hopens, identityAlreadyValidated_dispatched hd]
    cases hsecret : c.before.helloOpens pr d.packet hello with
    | none => exact .inl ⟨rfl, rfl⟩
    | some secret =>
      simp only [Option.isSome_some, Bool.true_and]
      by_cases hversion : Node.protoVersionMin ≤ hello.protocolVersion
      · rw [if_neg (UInt8.not_lt.mpr hversion), decide_eq_true hversion]
        cases hvalid : c.before.identityAlreadyValidated hello.identity || hello.identity.validateAddress pr with
        | false =>
          obtain ⟨hknown, haddress⟩ := Bool.or_eq_false_iff.mp hvalid
          exact .inl ⟨rfl, by simp [hknown, haddress]⟩
        | true =>
          refine .inr ⟨hello, secret, rfl, if_neg ?_⟩
          rw [← Bool.not_or, hvalid]
          decide
      · rw [if_pos (UInt8.not_le.mp hversion), decide_eq_false hversion]
        exact .inl ⟨rfl, rfl⟩

/-- A handler that touches the peers decides about the path: for the identity of a HELLO
that is accepted, or for the source. -/
theorem handleAlone_decides {d : Dispatch} {n' : Node} (hd : c.dispatched pr = some d)
    (halone : Node.handleAlone pr d c.fromAddr c.now = .ok n') :
    (c.decidesFor pr = none ∧ KeepsPeers d.node n') ∨
    (∃ hello secret, c.helloAccepted pr = some hello.identity ∧
      c.decidesFor pr = some hello.identity.address.bytes ∧
      n' = d.node.acceptHello pr d.packet hello secret c.fromAddr c.now d.packetId) ∨
    (c.decidesFor pr = some d.source ∧ ∃ paths,
      PushDirectPathsPayload.deserialize (d.packet.drop Constants.minPacketLength) = .ok paths ∧
      n' = d.node.handlePushDirectPaths pr d.packet c.fromAddr c.now) ∨
    (c.decidesFor pr = some d.source ∧ ∃ timestampEcho,
      n' = d.node.handleOkHello pr d.packet timestampEcho c.fromAddr c.now) := by
  unfold Node.handleAlone at halone
  cases hverb : Verb.fromByte d.verbId with
  | none =>
    simp only [hverb] at halone
    cases halone
    exact .inl ⟨by simp [decidesFor, hd, hverb], .refl _⟩
  | some verb =>
    simp only [hverb] at halone
    by_cases hok : verb = .ok
    · subst hok
      simp only at halone
      cases hparse : OkPayload.deserialize (d.packet.drop Constants.minPacketLength) with
      | error e =>
        simp only [hparse] at halone
        cases halone
        exact .inl ⟨by simp [decidesFor, hd, hverb, hparse], .refl _⟩
      | ok ok =>
        obtain ⟨inReVerb, inRePacketId, sub⟩ := ok
        simp only [hparse] at halone
        cases sub with
        | hello timestampEcho protocolVersion majorVersion minorVersion revision worldUpdate =>
          cases halone
          exact .inr (.inr (.inr ⟨by simp [decidesFor, hd, hverb, hparse], timestampEcho, rfl⟩))
        | whois identities =>
          cases halone
          exact .inl ⟨by simp [decidesFor, hd, hverb, hparse], .refl _⟩
        | generic data =>
          cases halone
          exact .inl ⟨by simp [decidesFor, hd, hverb, hparse], Node.keepsPeers_handleOkGeneric ..⟩
    · have hhandled : Node.handleVerb pr verb d c.fromAddr c.now = .ok n' := by
        cases verb <;> first | exact halone | exact absurd rfl hok
      by_cases hhello : verb = .hello
      · subst hhello
        obtain rfl : d.node.handleHello pr d.packet c.fromAddr c.now d.packetId = n' := Except.ok.inj hhandled
        rcases handleHello_cases hd hverb with ⟨hnone, heq⟩ | ⟨hello, secret, hsome, heq⟩
        · rw [heq]
          exact .inl ⟨by simp [decidesFor, hd, hverb, hnone], .refl _⟩
        · exact .inr (.inl ⟨hello, secret, hsome, by simp [decidesFor, hd, hverb, hsome], heq⟩)
      · by_cases hpush : verb = .pushDirectPaths
        · subst hpush
          obtain rfl : d.node.handlePushDirectPaths pr d.packet c.fromAddr c.now = n' := Except.ok.inj hhandled
          cases hparse : PushDirectPathsPayload.deserialize (d.packet.drop Constants.minPacketLength) with
          | error e =>
            have hsame : d.node.handlePushDirectPaths pr d.packet c.fromAddr c.now = d.node := by
              rw [Node.handlePushDirectPaths, hparse]
            rw [hsame]
            exact .inl ⟨by simp [decidesFor, hd, hverb, hparse, Except.isOk, Except.toBool], .refl _⟩
          | ok paths =>
            have hdecides : c.decidesFor pr = some d.source := by
              simp [decidesFor, hd, hverb, hparse, Except.isOk, Except.toBool]
            exact .inr (.inr (.inl ⟨hdecides, paths, rfl, rfl⟩))
        · refine .inl ⟨?_, Node.keepsPeers_handleVerb pr hhandled hhello hpush⟩
          rw [decidesFor, hd, Option.bind_some, hverb]
          cases verb <;> first | rfl | exact absurd rfl hok | exact absurd rfl hhello | exact absurd rfl hpush

/-- What a packet does to the paths. What held of every direct path still does, if it holds
of the path of the source that the packet makes direct, and of that of a HELLO's identity. -/
theorem directOnly_settled {us : Identity} {worlds : Option World × List World} {K : ByteVec 5 → SocketAddr → Prop}
    {d : Dispatch} {n' : Node} (hd : c.dispatched pr = some d)
    (halone : Node.handleAlone pr d c.fromAddr c.now = .ok n')
    (hbefore : PeersHold us worlds (fun a p => p.DirectOnly (K a)) c.before)
    (hsource : ∀ peer, c.before.topology.getPeer d.source = some peer → c.takenForDirect pr = true →
      peer.directAt c.fromAddr = true ∨ K d.source c.fromAddr)
    (haccepted : ∀ identity, c.helloAccepted pr = some identity → Node.arrivedDirectly c.data = true →
      K identity.address.bytes c.fromAddr) :
    PeersHold us worlds (fun a p => p.DirectOnly (K a)) n' := by
  have hadmitted := dispatched_eq_some.mp hd
  have hdsource : d.source = (PacketHeader.read c.data).source := (Node.admitPacket_dispatch hadmitted).2.2.2.1
  have hpacket : (PacketHeader.read d.packet).source = d.source := Node.source_dispatch hadmitted
  have hhops : Node.arrivedDirectly d.packet = Node.arrivedDirectly c.data := Node.arrivedDirectly_dispatch hadmitted
  have hclear : PeersHold us worlds (fun a p => p.DirectOnly (K a)) { c.before with actions := [] } :=
    hbefore.congr rfl rfl rfl
  have htaken : (c.before.topology.getPeer d.source).isSome = true → c.takenForDirect pr = true →
      K d.source c.fromAddr := by
    intro hknown htaken
    obtain ⟨peer, hpeer⟩ := Option.isSome_iff_exists.mp hknown
    rcases hsource peer hpeer htaken with hdirect | hK
    · obtain ⟨q, hq, haddr, hq'⟩ := Peer.directAt_iff.mp hdirect
      exact haddr ▸ hbefore.each _ peer hpeer q hq hq'
    · exact hK
  have hjust : PeersHold us worlds (Node.JustNoted K d.source c.fromAddr) d.node := by
    rw [dispatched_node hd, ← hdsource]
    exact Node.justNoted_noteSource hclear d.source c.fromAddr c.now
  -- Where no handler decides about the source, the note has to be right.
  have hnoted : c.decidesFor pr ≠ some d.source → PeersHold us worlds (fun a p => p.DirectOnly (K a)) d.node := by
    intro hundecided
    rw [dispatched_node hd, ← hdsource]
    refine Node.directOnly_noteSource hclear d.source c.fromAddr c.now fun hknown hrelayed => htaken hknown ?_
    rw [takenForDirect, ← hdsource, if_neg hundecided]
    exact congrArg not hrelayed
  have hdecided : c.decidesFor pr = some d.source → ∀ p, d.node.topology.getPeer d.source = some p →
      Node.arrivedDirectly d.packet = true → K d.source c.fromAddr := by
    intro hdecides p hp hdirect
    obtain ⟨peer, hpeer, -⟩ := identity_of_dispatched hd hp
    refine htaken (by rw [hpeer]; rfl) ?_
    rw [takenForDirect, ← hdsource, if_pos hdecides, ← hhops]
    exact hdirect
  rcases handleAlone_decides hd halone with ⟨hnone, hkept⟩ | ⟨hello, secret, hsome, hdecides, rfl⟩ |
    ⟨hdecides, paths, hparse, rfl⟩ | ⟨hdecides, timestampEcho, rfl⟩
  · exact (hnoted (by rw [hnone]; exact fun h => by cases h)).keepsPeers hkept
  · have hnew : ∀ a, (Peer.new { hello.identity with secret := none } false).DirectOnly (K a) :=
      fun a q hq => by cases hq
    have hdirect : Node.arrivedDirectly d.packet = true → K hello.identity.address.bytes c.fromAddr :=
      fun hd' => haccepted _ hsome (hhops ▸ hd')
    by_cases hsame : hello.identity.address.bytes = d.source
    · refine Node.directOnly_acceptHello hjust (.inl (hnew _)) (fun a p ha hp => hp.other (hsame ▸ ha)) _ _ ?_
      exact fun p hp => hp.addPath c.now hdirect
    · have hother := hnoted (by rw [hdecides]; exact fun h => hsame (Option.some.inj h))
      refine Node.directOnly_acceptHello hother (hnew _) (fun a p _ hp => hp) _ _ ?_
      exact fun p hp => hp.addPath c.now hdirect
  · exact Node.directOnly_handlePushDirectPaths hjust hpacket hparse (hdecided hdecides) c.now
  · exact Node.directOnly_handleOkHello hjust hpacket (hdecided hdecides) timestampEcho c.now

/-- The paths that a packet makes direct are such as a direct path may be. -/
def Grants (pr : Primitives) (K : ByteVec 5 → SocketAddr → Prop) (c : Call) : Prop :=
  (∀ d peer, c.dispatched pr = some d → c.before.topology.getPeer d.source = some peer →
    c.takenForDirect pr = true → peer.directAt c.fromAddr = true ∨ K d.source c.fromAddr) ∧
  ∀ identity, c.helloAccepted pr = some identity → Node.arrivedDirectly c.data = true →
    K identity.address.bytes c.fromAddr

/-- An answer to WHOIS does nothing by itself. -/
theorem handleAlone_whois {d : Dispatch} (hverb : Verb.fromByte d.verbId = some .ok)
    (hwhois : (Node.whoisIdentities d.packet).isSome = true) (fromAddr : SocketAddr) (now : UInt64) :
    Node.handleAlone pr d fromAddr now = .ok d.node := by
  unfold Node.whoisIdentities at hwhois
  unfold Node.handleAlone
  rw [hverb]
  simp only
  split at hwhois
  · rename_i hparse
    rw [hparse]
  · cases hwhois

variable (pr) in
theorem directOnly_invariant (us : Identity) (worlds : Option World × List World) (K : ByteVec 5 → SocketAddr → Prop) :
    Node.CallInvariant pr (Grants pr K) (PeersHold us worlds fun a p => p.DirectOnly (K a)) where
  frame := fun _ _ _ _ h => h.congr rfl rfl rfl
  finished := fun _ _ _ _ _ hadmitted h => h.finished hadmitted
  alone := fun _ d _ hgrants hd halone h => directOnly_settled hd halone h (fun peer => hgrants.1 d peer hd) hgrants.2
  noted := fun c d hgrants hd hverb hwhois h =>
    directOnly_settled hd (handleAlone_whois hverb hwhois c.fromAddr c.now) h (fun peer => hgrants.1 d peer hd) hgrants.2
  learned := fun _ identity now h => h.learnIdentity identity now fun q hq => by cases hq

/-- A HELLO that is accepted and came without a hop is an authenticated packet of its identity. -/
theorem directFrom_of_accepted {identity : Identity} (haccepted : c.helloAccepted pr = some identity)
    (hdirect : Node.arrivedDirectly c.data = true) : c.directFrom pr identity.address.bytes c.fromAddr = true := by
  have hdispatched : (c.dispatched pr).isSome = true := by
    obtain ⟨d, hd, -⟩ := Option.bind_eq_some_iff.mp haccepted
    rw [hd]
    rfl
  simp [directFrom, provenFrom, hdispatched, hdirect, haccepted]

end Call

namespace Service
variable {pr : Primitives}

/-! ### Runs -/

/-- An authenticated packet of a peer has come from an address without a hop. -/
def HeardDirectly (pr : Primitives) (t : List (Entry Node Event Output)) (a : ByteVec 5) (addr : SocketAddr) : Prop :=
  ∃ e ∈ t, ∃ c ∈ e.output.calls, c.directFrom pr a addr = true

theorem HeardDirectly.append {t t' : List (Entry Node Event Output)} {a : ByteVec 5} {addr : SocketAddr}
    (h : HeardDirectly pr t a addr) : HeardDirectly pr (t ++ t') a addr := by
  obtain ⟨e, he, hrest⟩ := h
  exact ⟨e, List.mem_append_left _ he, hrest⟩

/-- Every direct path is an endpoint or has been heard from directly. -/
def DirectHeld (pr : Primitives) (t : List (Entry Node Event Output)) (n : Node) : Prop :=
  PeersHold n.identity n.topology.worlds
    (fun a p => p.DirectOnly fun addr => addr ∈ n.topology.endpoints ∨ HeardDirectly pr t a addr) n

theorem DirectHeld.of_peersHold {us : Identity} {worlds : Option World × List World}
    {t : List (Entry Node Event Output)} {n : Node}
    (h : PeersHold us worlds (fun a p => p.DirectOnly fun addr =>
      addr ∈ Topology.listed worlds ∨ HeardDirectly pr t a addr) n) : DirectHeld pr t n := by
  obtain ⟨rfl, rfl, heach⟩ := h
  exact ⟨rfl, rfl, heach⟩

/-- The calls of a datagram grant what they make direct, if they are sound. -/
theorem calls_grant {e : Entry Node Event Output} {t : List (Entry Node Event Output)} {r : Received}
    {fuel : Nat} {data : Bytes} {fromAddr : SocketAddr} {now : UInt64}
    (hr : Node.receiveFuel pr fuel e.before data fromAddr now = .ok r) (hout : e.output = ⟨r.actions, r.calls⟩)
    (hsound : ∀ c ∈ e.output.calls, c.DirectSound pr (HeardDirectly pr t)) :
    ∀ c ∈ r.calls, c.Grants pr fun a addr =>
      addr ∈ Topology.listed e.before.topology.worlds ∨ HeardDirectly pr (t ++ [e]) a addr := by
  have hworlds := (Call.directOnly_invariant pr e.before.identity e.before.topology.worlds
    fun _ _ => True).receiveFuel hr (fun _ _ => ⟨fun _ _ _ _ _ => .inr trivial, fun _ _ _ => trivial⟩)
    ⟨rfl, rfl, fun _ _ _ _ _ _ => trivial⟩
  intro c hc
  have hc' : c ∈ e.output.calls := by
    rw [hout]
    exact hc
  have hheard : ∀ {a addr}, c.directFrom pr a addr = true → HeardDirectly pr (t ++ [e]) a addr :=
    fun hdirect => ⟨e, by simp, c, hc', hdirect⟩
  refine ⟨fun d peer hd hpeer htaken => ?_, fun identity haccepted hdirect => ?_⟩
  · cases hat : peer.directAt c.fromAddr with
    | true => exact .inl rfl
    | false =>
      right
      obtain ⟨hdirect, hproven | hlisted | hbefore⟩ := hsound c hc' d peer hd hpeer htaken hat
      · exact .inr (hheard (by simp [Call.directFrom, hd, hdirect, hproven]))
      · rw [Topology.endpoints, (hworlds.2 c hc).worlds] at hlisted
        exact .inl hlisted
      · exact .inr hbefore.append
  · exact .inr (hheard (Call.directFrom_of_accepted haccepted hdirect))

/-- The direct paths of a node with one moon more. -/
theorem DirectHeld.loadMoon {t : List (Entry Node Event Output)} {n : Node} (h : DirectHeld pr t n) (moon : World) :
    DirectHeld pr t { n with topology := { moon.roots.foldl Topology.addRoot n.topology with
      moons := (moon.roots.foldl Topology.addRoot n.topology).moons ++ [moon] } } := by
  have hlisted : ∀ addr ∈ n.topology.endpoints,
      addr ∈ Topology.listed (n.topology.planet, n.topology.moons ++ [moon]) := by
    intro addr haddr
    obtain ⟨world, hworld, hrest⟩ := List.mem_flatMap.mp haddr
    refine List.mem_flatMap.mpr ⟨world, ?_, hrest⟩
    rw [← List.append_assoc]
    exact List.mem_append_left _ hworld
  have hmono := h.mono (Q := fun a p => p.DirectOnly fun addr =>
      addr ∈ Topology.listed (n.topology.planet, n.topology.moons ++ [moon]) ∨ HeardDirectly pr t a addr)
    fun a p hp q hq hq' => (hp q hq hq').imp_left (hlisted _)
  have hadded := hmono.addRoots moon.roots fun root hroot =>
    Peer.directOnly_rootPeer fun endpoint hendpoint addr haddr =>
      .inl (Topology.mem_listed (n.topology.planet, n.topology.moons ++ [moon]) (by simp) hroot hendpoint haddr)
  have hworlds := hadded.worlds
  refine .of_peersHold ⟨rfl, ?_, hadded.each⟩
  obtain ⟨hplanet, hmoons⟩ := Prod.mk.inj hworlds
  show (_, _) = _
  simp only
  rw [hplanet, hmoons]

/-- A step whose calls are sound keeps the direct paths to those that may be. -/
theorem DirectHeld.step {e : Entry Node Event Output} {t : List (Entry Node Event Output)}
    (h : DirectHeld pr t e.before) (he : Service.step pr e.before e.event = .ok (e.after, e.output))
    (hunload : ∀ moonId, e.event ≠ .unloadMoon moonId)
    (hsound : ∀ c ∈ e.output.calls, c.DirectSound pr (HeardDirectly pr t)) : DirectHeld pr (t ++ [e]) e.after := by
  have hlater : DirectHeld pr (t ++ [e]) e.before :=
    h.mono fun a p hp q hq hq' => (hp q hq hq').imp_right HeardDirectly.append
  by_cases hreceive : ∃ data fromAddr now, e.event = .receive data fromAddr now
  · obtain ⟨data, fromAddr, now, hevent⟩ := hreceive
    rw [hevent] at he
    obtain ⟨r, hr, hafter, hout⟩ := step_receive he
    rw [hafter]
    exact .of_peersHold ((Call.directOnly_invariant pr _ _ _).receiveFuel hr (calls_grant hr hout hsound) hlater).1
  · by_cases hload : ∃ moon, e.event = .loadMoon moon
    · obtain ⟨moon, hevent⟩ := hload
      rw [hevent] at he
      obtain ⟨r, hr, heq⟩ := bind_eq_ok he
      cases r with
      | error error =>
        obtain ⟨hafter, -⟩ := Prod.mk.inj (Except.ok.inj heq)
        rw [← hafter]
        exact hlater
      | ok topology =>
        obtain ⟨hafter, -⟩ := Prod.mk.inj (Except.ok.inj heq)
        obtain ⟨verified, -, htopology⟩ := bind_eq_ok hr
        cases verified with
        | error error => cases htopology
        | ok u =>
          cases htopology
          rw [← hafter]
          exact hlater.loadMoon moon
    · exact .of_peersHold (step_peersHold (directOnly_timerKeeps _) he
        (fun data fromAddr now heq => hreceive ⟨data, fromAddr, now, heq⟩)
        (fun moon heq => hload ⟨moon, heq⟩) hunload hlater)

/-- A node starts with the endpoints of its planet. -/
theorem new_directHeld {identity : Identity} {planetData : Bytes} {id : UInt64} {start : Node}
    (h : Node.new identity planetData id = .ok start) : DirectHeld pr [] start := by
  obtain ⟨planet, -, heq⟩ := bind_eq_ok h
  cases heq
  have hnone : PeersHold identity (none, []) (fun a p => p.DirectOnly fun addr =>
        addr ∈ Topology.listed (some planet, []) ∨ HeardDirectly pr [] a addr)
      { identity, localAddresses := [], topology := Topology.new, reassembly := .new 256, actions := []
        nextPacketId := Node.succPacketId id, networks := [], multicastManager := .new
        pendingMulticastGathers := [], pendingNetworkConfigs := [], pendingEncryptedPackets := [], armored := [] } :=
    ⟨rfl, rfl, fun a p hp => by cases hp⟩
  have hadded := hnone.addRoots planet.roots fun root hroot =>
    Peer.directOnly_rootPeer fun endpoint hendpoint addr haddr =>
      .inl (Topology.mem_listed (some planet, []) (by simp) hroot hendpoint haddr)
  have hmoons : (planet.roots.foldl Topology.addRoot Topology.new).moons = [] := (Prod.mk.inj hadded.worlds).2
  exact .of_peersHold ⟨rfl, congrArg (Prod.mk (some planet)) hmoons, hadded.each⟩

/-- Every call of a run is sound for what was heard directly before its step. -/
def RunSound (pr : Primitives) (t : List (Entry Node Event Output)) : Prop :=
  ∀ t₁ e t₂, t = t₁ ++ e :: t₂ → ∀ c ∈ e.output.calls, c.DirectSound pr (HeardDirectly pr t₁)

theorem RunSound.init {t : List (Entry Node Event Output)} {e : Entry Node Event Output}
    (h : RunSound pr (t ++ [e])) : RunSound pr t := by
  rintro t₁ e₁ t₂ rfl
  exact h t₁ e₁ (t₂ ++ [e]) (by simp)

theorem run_directHeld {start n : Node} {t : List (Entry Node Event Output)} (hrun : NodeRun pr start t n)
    (hstart : DirectHeld pr [] start) (hunload : ∀ e ∈ t, ∀ moonId, e.event ≠ .unloadMoon moonId)
    (hsound : RunSound pr t) : DirectHeld pr t n := by
  induction hrun with
  | nil => exact hstart
  | @snoc t s₁ s₂ event o _ he ih =>
    have hbefore := ih (fun e he => hunload e (List.mem_append_left _ he)) hsound.init
    exact hbefore.step (e := ⟨s₁, event, o, s₂⟩) he (hunload _ (by simp)) (hsound t _ [] rfl)

/-- What a packet with hops does to the paths, if its call is sound: none becomes direct. -/
theorem settled_hops {c : Call} {heard : ByteVec 5 → SocketAddr → Prop} (hsound : c.DirectSound pr heard)
    (hhops : Node.arrivedDirectly c.data = false) {n' : Node} (hsettled : c.settled pr = some n') {a : ByteVec 5}
    {addr : SocketAddr} (hdirect : n'.directAt a addr = true) : c.before.directAt a addr = true := by
  obtain ⟨d, hd, halone⟩ := Option.bind_eq_some_iff.mp hsettled
  have halone' : Node.handleAlone pr d c.fromAddr c.now = .ok n' := by
    cases hr : Node.handleAlone pr d c.fromAddr c.now with
    | error e => rw [hr] at halone; cases halone
    | ok m => rw [hr] at halone; exact congrArg Except.ok (Option.some.inj halone)
  have hbefore : PeersHold c.before.identity c.before.topology.worlds
      (fun a p => p.DirectOnly fun addr => c.before.directAt a addr = true) c.before := by
    refine ⟨rfl, rfl, fun a peer hpeer => .of_directAt fun addr haddr => ?_⟩
    rw [Node.directAt, hpeer]
    exact haddr
  have hkept := Call.directOnly_settled (K := fun a addr => c.before.directAt a addr = true) hd halone' hbefore
    (fun peer hpeer htaken => by
      cases hat : peer.directAt c.fromAddr with
      | true => exact .inl rfl
      | false => exact absurd (hsound d peer hd hpeer htaken hat).1 (by rw [hhops]; decide))
    (fun _ _ hno => absurd hno (by rw [hhops]; decide))
  obtain ⟨peer, hpeer, hat⟩ := Option.any_eq_true _ _ |>.mp hdirect
  obtain ⟨q, hq, rfl, hq'⟩ := Peer.directAt_iff.mp hat
  exact hkept.each a peer hpeer q hq hq'

/-- In a run from a new node in which no moon is unloaded and whose calls are sound, every
direct path is an endpoint of a world or an authenticated packet of the peer has come along
it without a hop; and no packet that has come with hops makes a path direct. -/
theorem run_direct (pr : Primitives) (identity : Identity) (planetData : Bytes) (id : UInt64) (start n : Node)
    (t : List (Entry Node Event Output)) (hstart : Node.new identity planetData id = .ok start)
    (hrun : NodeRun pr start t n) (hunload : ∀ e ∈ t, ∀ moonId, e.event ≠ .unloadMoon moonId)
    (hsound : RunSound pr t) :
    (∀ a peer, n.topology.getPeer a = some peer → ∀ path ∈ peer.paths, path.isDirect = true →
      path.address ∈ n.topology.endpoints ∨
        ∃ e ∈ t, ∃ c ∈ e.output.calls, c.directFrom pr a path.address = true) ∧
    ∀ e ∈ t, ∀ c ∈ e.output.calls, Node.arrivedDirectly c.data = false → ∀ n', c.settled pr = some n' →
      ∀ a addr, n'.directAt a addr = true → c.before.directAt a addr = true := by
  refine ⟨(run_directHeld hrun (new_directHeld hstart) hunload hsound).each, fun e he c hc hhops n' hsettled a addr => ?_⟩
  obtain ⟨t₁, t₂, ht⟩ := List.append_of_mem he
  exact settled_hops (hsound t₁ e t₂ ht c hc) hhops hsettled

/-- An ECHO of root number 2 from an address that is not among its endpoints. -/
def sampleEcho : Bytes := Sample.sentBy 2 9 .echo [1, 2, 3]

/-- The same, after a relay has passed it on. -/
def sampleRelayedEcho : Bytes := (Switch.incrementHops sampleEcho).getD []

/-- The ECHO itself is a reason to call the path direct. -/
theorem run_direct_echo : ∃ n t, NodeRun Sample.primitives Sample.start t n ∧
    n.directAt (Sample.identity 2).address.bytes (Sample.endpoint 66) = true ∧
    ∀ path : Path, (∃ peer, n.topology.getPeer (Sample.identity 2).address.bytes = some peer ∧ path ∈ peer.paths) →
      path.isDirect = true → path.address ∈ n.topology.endpoints ∨
        ∃ e ∈ t, ∃ c ∈ e.output.calls, c.directFrom Sample.primitives (Sample.identity 2).address.bytes path.address = true := by
  have hcheck : okWith (step Sample.primitives Sample.start (.receive sampleEcho (Sample.endpoint 66) 1000)) (fun r =>
      r.1.directAt (Sample.identity 2).address.bytes (Sample.endpoint 66) &&
        r.2.calls.all fun c => Node.arrivedDirectly c.data &&
          (c.dispatched Sample.primitives).all fun d => c.provenFrom Sample.primitives d.source) = true := by
    decide +kernel
  obtain ⟨⟨n, o⟩, hstep, hall⟩ := exists_of_okWith hcheck
  obtain ⟨hdirect, hcalls⟩ := Bool.and_eq_true _ _ |>.mp hall
  have hrun := Run.one hstep
  refine ⟨n, _, hrun, hdirect, fun path hpath hflag => ?_⟩
  obtain ⟨peer, hpeer, hmem⟩ := hpath
  refine (run_direct Sample.primitives _ _ _ _ _ _ Sample.new_start hrun ?_ ?_).1 _ peer hpeer path hmem hflag
  · intro e he moonId heq
    obtain rfl := List.mem_singleton.mp he
    cases heq
  · intro t₁ e t₂ ht c hc d peer hd _ _ _
    have he : e ∈ [(⟨Sample.start, .receive sampleEcho (Sample.endpoint 66) 1000, o, n⟩ : Entry Node Event Output)] := by
      rw [ht]
      simp
    obtain rfl := List.mem_singleton.mp he
    have hcall := List.all_eq_true.mp hcalls c hc
    rw [hd, Option.all_some, Bool.and_eq_true] at hcall
    exact ⟨hcall.1, .inl hcall.2⟩

/-- Passed on by a relay, it makes the relay's address a direct path of the root. -/
theorem relayed_called_direct : ¬ ∀ (pr : Primitives) (identity : Identity) (planetData : Bytes) (id : UInt64)
    (start n : Node) (t : List (Entry Node Event Output)), Node.new identity planetData id = .ok start →
    NodeRun pr start t n → (∀ e ∈ t, ∀ moonId, e.event ≠ .unloadMoon moonId) →
    ∀ a peer, n.topology.getPeer a = some peer → ∀ path ∈ peer.paths, path.isDirect = true →
      path.address ∈ n.topology.endpoints ∨
        ∃ e ∈ t, ∃ c ∈ e.output.calls, c.directFrom pr a path.address = true := by
  intro hclaim
  have hcheck : okWith (step Sample.primitives Sample.start (.receive sampleRelayedEcho (Sample.endpoint 66) 1000))
      (fun r => r.1.directAt (Sample.identity 2).address.bytes (Sample.endpoint 66) &&
        ! r.1.topology.endpoints.contains (Sample.endpoint 66) &&
        r.2.calls.all fun c => ! Node.arrivedDirectly c.data) = true := by
    decide +kernel
  obtain ⟨⟨n, o⟩, hstep, hall⟩ := exists_of_okWith hcheck
  simp only [Bool.and_eq_true, Bool.not_eq_true'] at hall
  obtain ⟨⟨hdirect, hunlisted⟩, hcalls⟩ := hall
  obtain ⟨peer, hpeer, hat⟩ := Option.any_eq_true _ _ |>.mp hdirect
  obtain ⟨path, hpath, haddr, hflag⟩ := Peer.directAt_iff.mp hat
  rcases hclaim Sample.primitives _ _ _ _ _ _ Sample.new_start (Run.one hstep)
    (by simp) _ peer hpeer path hpath hflag with hlisted | ⟨e, he, c, hc, hfrom⟩
  · rw [haddr] at hlisted
    simp [hlisted] at hunlisted
  · obtain rfl := List.mem_singleton.mp he
    have hhops := List.all_eq_true.mp hcalls c hc
    rw [Bool.not_eq_true'] at hhops
    simp [Call.directFrom, hhops] at hfrom

end Service

end ManyTier
