import ManyTier.Delivery.Handshake
import ManyTier.Node.Sessions
import ManyTier.Security.Gate

/-! What the keys of a session depend on.

A HELLO starts a session with the identity it carries, and the peer table keeps the
identity it had for that address. Both are the same unless a HELLO is accepted that
carries another valid identity of a known address: then the session has the one's keys and
the entry the other's identity (`collidingHello_disagrees`). As long as no call accepts
such a HELLO, every active peer has the keys agreed with the identity held for it, in every
state of a run (`run_sessionsAgreed`). -/
namespace ManyTier

/-! ### One call -/

namespace Call
variable (pr : Primitives) (c : Call)

/-- The identity of a HELLO that a call accepts: it opens under the key agreed with that
identity, is of a version that is served, and the identity is known or valid. -/
def helloAccepted : Option Identity :=
  (c.dispatched pr).bind fun d =>
    if Verb.fromByte d.verbId ≠ some .hello then none
    else
      match HelloPayload.deserialize (d.packet.drop Constants.minPacketLength) with
      | .error _ => none
      | .ok (hello, _) =>
        if (c.before.helloOpens pr d.packet hello).isSome && Node.protoVersionMin ≤ hello.protocolVersion &&
            (c.before.identityAlreadyValidated hello.identity || hello.identity.validateAddress pr) then
          some hello.identity
        else none

/-- A HELLO accepted for a known address carries the key held for it. -/
def HelloKeepsKey : Prop :=
  ∀ identity peer, c.helloAccepted pr = some identity →
    c.before.topology.getPeer identity.address.bytes = some peer →
      peer.identity.publicKey.dh = identity.publicKey.dh

variable {pr c}

/-- To note a source changes no identity. -/
theorem identity_of_dispatched {d : Dispatch} (hd : c.dispatched pr = some d) {a : ByteVec 5} {peer : Peer}
    (hpeer : d.node.topology.getPeer a = some peer) :
    ∃ peer', c.before.topology.getPeer a = some peer' ∧ peer.identity = peer'.identity := by
  rw [dispatched_node hd] at hpeer
  have hpeer' : (c.before.topology.modifyPeer _ _).getPeer a = some peer := hpeer
  rw [Topology.getPeer_modifyPeer] at hpeer'
  split at hpeer'
  · obtain ⟨p, hp, rfl⟩ := Option.map_eq_some_iff.mp hpeer'
    exact ⟨p, hp, Peer.identity_heardFrom ..⟩
  · exact ⟨peer, hpeer', rfl⟩

/-- To note a source makes no identity known. -/
theorem identityAlreadyValidated_dispatched {d : Dispatch} (hd : c.dispatched pr = some d) (identity : Identity) :
    d.node.identityAlreadyValidated identity = c.before.identityAlreadyValidated identity := by
  have hidentity : ((d.node.topology.getPeer identity.address.bytes).map Peer.identity) =
      (c.before.topology.getPeer identity.address.bytes).map Peer.identity := by
    rw [dispatched_node hd]
    exact Node.identity_noteSource { c.before with actions := [] } _ _ _ _
  have hmap : ∀ n : Node, n.identityAlreadyValidated identity =
      ((n.topology.getPeer identity.address.bytes).map Peer.identity).any (·.publicKey = identity.publicKey) := by
    intro n
    unfold Node.identityAlreadyValidated
    cases n.topology.getPeer identity.address.bytes <;> rfl
  rw [hmap, hmap, hidentity]

theorem helloAccepted_of {d : Dispatch} (hd : c.dispatched pr = some d)
    (hverb : Verb.fromByte d.verbId = some .hello) {hello : HelloPayload} {rest : Nat}
    (hread : HelloPayload.deserialize (d.packet.drop Constants.minPacketLength) = .ok (hello, rest))
    (hopens : (d.node.helloOpens pr d.packet hello).isSome)
    (hversion : Node.protoVersionMin ≤ hello.protocolVersion)
    (hvalid : (d.node.identityAlreadyValidated hello.identity || hello.identity.validateAddress pr) = true) :
    c.helloAccepted pr = some hello.identity := by
  have hopens' : (c.before.helloOpens pr d.packet hello).isSome := by
    rw [dispatched_node hd] at hopens
    exact hopens
  rw [identityAlreadyValidated_dispatched hd] at hvalid
  unfold helloAccepted
  rw [hd, Option.bind_some, if_neg (not_not.mpr hverb), hread]
  exact if_pos (by rw [hopens', hvalid, decide_eq_true hversion]; rfl)

/-- The keys of the sessions stay the agreed ones. -/
theorem sessionsAgreed_invariant : Node.CallInvariant pr (HelloKeepsKey pr) (SessionsAgreed pr) where
  frame := fun n _ _ _ h => h.congr rfl rfl
  finished := by
    intro n data fromAddr now n' hadmitted h
    exact .of_peersHold (h.peersHold.finished hadmitted)
  alone := by
    intro c d n' hkeeps hd halone h
    have hnoted : SessionsAgreed pr d.node := by
      rw [dispatched_node hd]
      have hclear : SessionsAgreed pr { c.before with actions := [] } := h.congr rfl rfl
      exact hclear.noteSource _ _ _
    rcases Node.handleAlone_peers pr halone with hkeeps | ⟨hverb, rfl⟩ | ⟨-, rfl⟩ | ⟨-, echo, rfl⟩
    · exact hnoted.keepsPeers hkeeps
    · refine hnoted.handleHello _ _ _ _ ?_
      intro hello rest hread hopens hversion hvalid peer hpeer
      obtain ⟨peer', hpeer', hid⟩ := identity_of_dispatched hd hpeer
      rw [hid]
      exact hkeeps _ _ (helloAccepted_of hd hverb hread hopens hversion hvalid) hpeer'
    · exact hnoted.handlePushDirectPaths _ _ _
    · exact hnoted.handleOkHello _ _ _ _
  noted := by
    intro c d _ hd _ _ h
    rw [dispatched_node hd]
    have hclear : SessionsAgreed pr { c.before with actions := [] } := h.congr rfl rfl
    exact hclear.noteSource _ _ _
  learned := fun n identity now h => h.learnIdentity identity now

end Call

namespace Service

/-- The steps that receive nothing keep the keys of the sessions. -/
theorem step_sessionsAgreed {pr : Primitives} {n n' : Node} {e : Event} {o : Output}
    (h : step pr n e = .ok (n', o)) (hnot : ∀ data fromAddr now, e ≠ .receive data fromAddr now)
    (hn : SessionsAgreed pr n) : SessionsAgreed pr n' := by
  by_cases hload : ∃ moon, e = .loadMoon moon
  · obtain ⟨moon, rfl⟩ := hload
    obtain ⟨r, hr, heq⟩ := bind_eq_ok h
    cases r with
    | error => cases heq; exact hn
    | ok topology =>
      cases heq
      obtain ⟨verified, -, htopology⟩ := bind_eq_ok hr
      cases verified with
      | error => cases htopology
      | ok =>
        cases htopology
        exact (hn.addRoots moon.roots).congr rfl rfl
  · by_cases hunload : ∃ moonId, e = .unloadMoon moonId
    · obtain ⟨moonId, rfl⟩ := hunload
      obtain ⟨rfl, -⟩ := Prod.mk.inj (Except.ok.inj h)
      exact hn.unloadMoon moonId
    · exact .of_peersHold (step_peersHold (SessionsAgreed.timerKeeps n.identity) h hnot
        (fun moon heq => hload ⟨moon, heq⟩) (fun moonId heq => hunload ⟨moonId, heq⟩) hn.peersHold)

/-- As long as no call of a run accepts a HELLO for a known address under another key, the
keys of every session are those agreed with the identity held for the peer, in the state a
run ends in and in all states on the way. -/
theorem run_sessionsAgreed (pr : Primitives) (identity : Identity) (planetData : Bytes) (initialPacketId : UInt64)
    (start n : Node) (t : List (Entry Node Event Output))
    (hstart : Node.new identity planetData initialPacketId = .ok start) (hrun : NodeRun pr start t n)
    (hkeeps : ∀ e ∈ t, ∀ c ∈ e.output.calls, c.HelloKeepsKey pr) :
    SessionsAgreed pr n ∧ ∀ e ∈ t, SessionsAgreed pr e.before ∧ ∀ c ∈ e.output.calls, SessionsAgreed pr c.before := by
  have hother : ∀ e : Entry Node Event Output, step pr e.before e.event = .ok (e.after, e.output) → True →
      (∀ data fromAddr now, e.event ≠ .receive data fromAddr now) → SessionsAgreed pr e.before →
        SessionsAgreed pr e.after :=
    fun e he _ hnot hn => step_sessionsAgreed he hnot hn
  refine ⟨?_, run_invariant Call.sessionsAgreed_invariant (fun _ => True) hother hrun (.new hstart)
    fun e he => ⟨trivial, hkeeps e he⟩⟩
  exact Run.invariant (SessionsAgreed pr) (fun e => ∀ c ∈ e.output.calls, c.HelloKeepsKey pr)
    (fun e he hcalls hn => (step_invariant Call.sessionsAgreed_invariant (fun _ => True) hother he trivial hcalls hn).1)
    hrun (.new hstart) hkeeps

/-- Another valid identity with the address of root number 2. -/
def sampleColliding : Identity := ⟨(Sample.identity 2).address, ⟨Sample.key 9, Sample.key 2⟩, none⟩

/-- Its HELLO starts a session under its own key with the peer that is held as the root. -/
theorem collidingHello_disagrees : ∃ (start n : Node) (t : List (Entry Node Event Output)),
    Node.new (Sample.identity 1) Sample.planet.serialize 1 = .ok start ∧ NodeRun Sample.validating start t n ∧
    sampleColliding.validateAddress Sample.validating = true ∧ ¬ SessionsAgreed Sample.validating n := by
  have hvalid : sampleColliding.validateAddress Sample.validating = true := Sample.validateAddress_validating rfl
  have hours : Sample.start.identity.secret = some ⟨Sample.key 1, Sample.key 1⟩ := rfl
  have hfirst : byteAt sampleColliding.address.bytes.toBytes 0 ≠ 0xff := by decide
  obtain ⟨packet, answer, -, r, peer, -, -, -, -, hr, -, hus, hpeer, hstate, hid⟩ :=
    Node.receivePacket_hello hours hfirst hvalid (Sample.endpoint 20) (Sample.endpoint 66) 1000 5 6 1005
  have hstep : step Sample.validating Sample.start (.receive packet (Sample.endpoint 66) 1005) =
      .ok (r.node, ⟨r.actions, r.calls⟩) := by
    rw [step, hr, ok_bind]
    rfl
  have hroot : (Sample.start.topology.getPeer sampleColliding.address.bytes).map Peer.identity =
      some (Sample.identity 2).withoutSecret := by decide
  refine ⟨Sample.start, r.node, _, Sample.new_start, Run.one hstep, hvalid, ?_⟩
  intro hagreed
  obtain ⟨ours, hours, hkeys⟩ := hagreed _ peer hpeer _ (by rw [hstate]; rfl)
  rw [hus] at hours
  obtain rfl : (⟨Sample.key 1, Sample.key 1⟩ : SecretKey) = ours := Option.some.inj hours
  rw [hroot] at hid
  rw [hid] at hkeys
  exact absurd (congrArg Prod.fst hkeys) (by decide)

/-- The HELLO of root number 2 to number 1. -/
def sampleRootHello : Bytes :=
  match RootManager.sealedHello Sample.primitives (Sample.identity 2) (Sample.identity 1).address.bytes
      (Sample.endpoint 10) 1000 (KeyAgreement.keyAgree Sample.primitives (Sample.key 1) (Sample.key 2)) 5 6 with
  | .ok packet => packet
  | .error _ => []

/-- It starts a session, whose keys are those agreed with the root. -/
theorem run_sessionsAgreed_root : ∃ n t, NodeRun Sample.primitives Sample.start t n ∧
    SessionsAgreed Sample.primitives n ∧
    ((n.topology.getPeer (Sample.identity 2).address.bytes).bind Peer.sharedSecret).isSome = true := by
  have hcheck : okWith (step Sample.primitives Sample.start
      (.receive sampleRootHello (Sample.endpoint 20) 1005)) (fun r =>
        (r.2.calls.all fun c => (c.helloAccepted Sample.primitives).all fun identity =>
          (c.before.topology.getPeer identity.address.bytes).all fun peer =>
            peer.identity.publicKey.dh = identity.publicKey.dh) &&
        ((r.1.topology.getPeer (Sample.identity 2).address.bytes).bind Peer.sharedSecret).isSome) = true := by
    decide +kernel
  obtain ⟨⟨n, o⟩, hstep, hall⟩ := exists_of_okWith hcheck
  rw [Bool.and_eq_true] at hall
  refine ⟨n, _, Run.one hstep, (run_sessionsAgreed Sample.primitives (Sample.identity 1) Sample.planet.serialize 1
    Sample.start n _ Sample.new_start (Run.one hstep) ?_).1, hall.2⟩
  intro e he c hc identity peer haccepted hpeer
  obtain rfl := List.mem_singleton.mp he
  have hcall := List.all_eq_true.mp hall.1 c hc
  rw [haccepted, Option.all_some, hpeer, Option.all_some] at hcall
  exact of_decide_eq_true hcall

end Service

end ManyTier
