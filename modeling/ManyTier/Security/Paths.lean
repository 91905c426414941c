import ManyTier.Security.SessionKeys

/-! What a packet that does not verify does to the peers.

`verifiesUnderSource` is the test a packet should pass before it says anything about its
source: its MAC is right under the key agreed with the identity of the source, and a
HELLO carries the identity of the address it claims to come from. A packet that does not
pass leaves every known peer as it was, except where the code acts before it has looked:
on a packet of suite 0 from a known source, on a forged answer to WHOIS that releases
waiting packets, and on a HELLO for which the carried address was not compared with the
header's. `Call.SourceSound` rules these out, and `run_unverified_keeps_peers` is the
frame theorem for every run. -/
namespace ManyTier

namespace Node
variable (pr : Primitives)

/-- A HELLO in the clear. -/
def isPlainHello (data : Bytes) : Bool :=
  let h := PacketHeader.read data
  h.cipherSuite = Constants.cipherNone && h.verb &&& 0x1f = Verb.hello.toByte

/-- The identity a HELLO in the clear carries. -/
def carriedIdentity (data : Bytes) : Option Identity :=
  if ! isPlainHello data then none
  else
    match HelloPayload.deserialize (data.drop Constants.minPacketLength) with
    | .ok (hello, _) => some hello.identity
    | .error _ => none

/-- The identity of a packet's source: the one held, else the one the packet brings. -/
def sourceIdentity (n : Node) (data : Bytes) : Option Identity :=
  match n.topology.getPeer (PacketHeader.read data).source with
  | some peer => some peer.identity
  | none => carriedIdentity data

/-- Whether the MAC of a packet is right under the keys of a session with an identity. -/
def opensUnder (ours : SecretKey) (theirs : Identity) (data : Bytes) : Bool :=
  let (secret, k0, k1) := sessionKeys pr ours theirs
  let h := PacketHeader.read data
  if h.cipherSuite = Constants.cipherNone ∨ h.cipherSuite = Constants.cipherSalsa2012 then
    Salsa.macVerifies pr secret data
  else if h.cipherSuite = Constants.cipherAesGmacSiv then aesVerifies pr k0 k1 data
  else false

/-- Whether a packet's MAC is right under the key agreed with the identity of its
source; a HELLO must carry an identity of its source's address too. -/
def verifiesUnderSource (n : Node) (data : Bytes) : Bool :=
  match n.identity.secret, n.sourceIdentity data with
  | some ours, some theirs =>
    opensUnder pr ours theirs data && (! isPlainHello data ||
      (carriedIdentity data).map (·.address.bytes) = some (PacketHeader.read data).source)
  | _, _ => false

/-- What is opened verifies under its source, if the sessions have the agreed keys. -/
theorem verifiesUnderSource_of_dearmor {n : Node} (hagreed : SessionsAgreed pr n) {data opened : Bytes}
    (hlen : Constants.minPacketLength ≤ data.length) (h : n.dearmor pr data = some opened) :
    n.verifiesUnderSource pr data = true := by
  have hsome : (n.dearmor pr data).isSome = true := by simp [h]
  rw [isSome_dearmor hlen, Bool.and_eq_true] at hsome
  obtain ⟨hmac, hnot⟩ := hsome
  have hplain : isPlainHello data = false := by rwa [Bool.not_eq_true'] at hnot
  have hkeys : ∃ ours theirs, n.identity.secret = some ours ∧ n.sourceIdentity data = some theirs ∧
      opensUnder pr ours theirs data = true := by
    unfold macVerifies sharedSecretForPeer aesKeysForPeer at hmac
    cases hpeer : n.topology.getPeer (PacketHeader.read data).source with
    | none => simp [hpeer] at hmac
    | some peer =>
      have hsource : n.sourceIdentity data = some peer.identity := by simp [sourceIdentity, hpeer]
      simp only [hpeer, Option.bind_some, Peer.sharedSecret_eq, Peer.aesKeys_eq] at hmac
      -- The keys are those of a session, or are agreed with the identity here.
      cases hstate : peer.state.keys with
      | some keys =>
        obtain ⟨ours, hours, rfl⟩ := hagreed _ peer hpeer keys hstate
        refine ⟨ours, peer.identity, hours, hsource, ?_⟩
        simpa [hstate, opensUnder] using hmac
      | none =>
        cases hours : n.identity.secret with
        | none => simp [hstate, hours] at hmac
        | some ours =>
          refine ⟨ours, peer.identity, rfl, hsource, ?_⟩
          simp only [hstate, hours, Option.map_none, Option.map_some] at hmac
          unfold opensUnder
          simp only
          split at hmac
          · rename_i hsuite
            rw [if_pos hsuite]
            exact hmac
          · split at hmac <;> cases hmac
  obtain ⟨ours, theirs, hours, htheirs, hopens⟩ := hkeys
  simp [verifiesUnderSource, hours, htheirs, hopens, hplain]

end Node

/-! ### Known peers -/

/-- Every known peer is as it was. -/
def KeepsKnown (n n' : Node) : Prop :=
  ∀ a peer, n.topology.getPeer a = some peer → n'.topology.getPeer a = some peer

namespace KeepsKnown
variable {a b c : Node}

theorem refl (n : Node) : KeepsKnown n n := fun _ _ h => h

theorem trans (h : KeepsKnown a b) (h' : KeepsKnown b c) : KeepsKnown a c :=
  fun address peer hp => h' address peer (h address peer hp)

theorem of_topology (h : b.topology = a.topology) : KeepsKnown a b := by
  intro address peer hp
  rw [h]
  exact hp

end KeepsKnown

namespace Node
variable {pr : Primitives} {n : Node}

/-- Nothing is known of an address: to change its peer changes nothing. -/
theorem getPeer_modifyPeer_unknown {address : ByteVec 5} (h : n.topology.getPeer address = none)
    (f : Peer → Peer) (a : ByteVec 5) :
    (n.modifyPeer address f).topology.getPeer a = n.topology.getPeer a := by
  show (n.topology.modifyPeer address f).getPeer a = _
  rw [Topology.getPeer_modifyPeer]
  split
  · rename_i ha
    rw [ha, h]
    rfl
  · rfl

theorem keepsKnown_addPeer (identity : Identity) :
    KeepsKnown n { n with topology := n.topology.addPeer identity } := by
  intro a peer hp
  show (n.topology.addPeer identity).getPeer a = some peer
  rw [Topology.getPeer_addPeer, if_neg]
  · exact hp
  · rintro ⟨-, hnone⟩
    rw [hnone] at hp
    cases hp

/-- A HELLO for an address not known adds a peer and touches no other. -/
theorem keepsKnown_handleHello (packet : Bytes) (fromAddr : SocketAddr) (now packetId : UInt64)
    (hnew : ∀ hello rest, HelloPayload.deserialize (packet.drop Constants.minPacketLength) = .ok (hello, rest) →
      (n.helloOpens pr packet hello).isSome → protoVersionMin ≤ hello.protocolVersion →
        (n.identityAlreadyValidated hello.identity || hello.identity.validateAddress pr) = true →
          n.topology.getPeer hello.identity.address.bytes = none) :
    KeepsKnown n (n.handleHello pr packet fromAddr now packetId) := by
  unfold handleHello
  split
  · exact .refl n
  · rename_i hello rest hread
    split
    · exact .refl n
    · rename_i secret hopens
      split
      · exact .refl n
      · rename_i hversion
        split
        · exact .refl n
        · rename_i hvalid
          have hunknown := hnew hello rest hread (by simp [hopens]) (UInt8.not_lt.mp hversion)
            (by simpa [or_iff_not_imp_left] using hvalid)
          refine KeepsKnown.trans ?_ (.of_topology (onlySends_sendArmored pr _ ..).topology)
          intro a peer hp
          have hne : a ≠ hello.identity.address.bytes := by
            rintro rfl
            rw [hunknown] at hp
            cases hp
          show ((n.topology.addPeer _).modifyPeer hello.identity.address.bytes _).getPeer a = some peer
          rw [Topology.getPeer_modifyPeer, if_neg hne]
          exact keepsKnown_addPeer _ a peer hp

theorem keepsKnown_learnIdentity (identity : Identity) (now : UInt64) :
    KeepsKnown n (n.learnIdentity pr identity now) := by
  have hadd : KeepsKnown n { n with topology := { n.topology.addPeer identity with
      pendingWhois := (n.topology.addPeer identity).pendingWhois.erase identity.address.bytes } } :=
    keepsKnown_addPeer identity
  unfold learnIdentity
  simp only
  split
  · exact hadd.trans (.of_topology (onlySends_sendHello pr _ ..).topology)
  · exact hadd

/-- To learn an identity makes no other address known. -/
theorem identityAlreadyValidated_learnIdentity (identity : Identity) (now : UInt64) {other : Identity}
    (hother : other.address.bytes ≠ identity.address.bytes) :
    (n.learnIdentity pr identity now).identityAlreadyValidated other = n.identityAlreadyValidated other := by
  have hsame : (n.learnIdentity pr identity now).topology.getPeer other.address.bytes =
      n.topology.getPeer other.address.bytes := by
    have hadd : (n.topology.addPeer identity).getPeer other.address.bytes = n.topology.getPeer other.address.bytes := by
      rw [Topology.getPeer_addPeer, if_neg fun h => hother h.1]
    unfold learnIdentity
    simp only
    split
    · rw [(onlySends_sendHello pr _ ..).topology]
      exact hadd
    · exact hadd
  unfold identityAlreadyValidated
  rw [hsame]

/-- An answer to WHOIS only adds peers, if nothing waits for a source whose identity it
brings. -/
theorem keepsKnown_resolve {recv : Receiver} {now : UInt64} {identities : List Identity} {p p' : Progress}
    (h : identities.foldlM (resolveIdentity pr recv now) p = .ok p')
    (hidle : ∀ w ∈ p.node.pendingEncryptedPackets, ∀ i ∈ identities,
      (p.node.identityAlreadyValidated i || i.validateAddress pr) = true → i.address.bytes ≠ w.source) :
    KeepsKnown p.node p'.node := by
  induction identities generalizing p with
  | nil =>
    cases h
    exact .refl _
  | cons identity rest ih =>
    rw [List.foldlM_cons] at h
    obtain ⟨q, hq, hrest⟩ := bind_eq_ok h
    unfold resolveIdentity at hq
    split at hq
    · cases hq
      exact ih hrest fun w hw i hi => hidle w hw i (List.mem_cons_of_mem _ hi)
    · rename_i hvalid
      have hidentity : ∀ w ∈ p.node.pendingEncryptedPackets, identity.address.bytes ≠ w.source := fun w hw =>
        hidle w hw identity List.mem_cons_self (by simpa [or_iff_not_imp_left] using hvalid)
      have hlearn := keepsNetworks_learnIdentity pr p.node identity now
      have hnone : p.node.pendingEncryptedPackets.filter (·.source = identity.address.bytes) = [] := by
        rw [List.filter_eq_nil_iff]
        intro w hw
        simpa using (hidentity w hw).symm
      simp only [replayPendingEncryptedPacketsFor, hlearn.pendingEncrypted, hnone] at hq
      cases hq
      refine KeepsKnown.trans (keepsKnown_learnIdentity identity now) (ih hrest ?_)
      -- What is learned has an address nothing waits for.
      intro w hw i hi hivalid
      have hw' := (List.mem_filter.mp hw).1
      by_cases haddress : i.address.bytes = identity.address.bytes
      · rw [haddress]
        exact hidentity w hw'
      · refine hidle w hw' i (List.mem_cons_of_mem _ hi) ?_
        rw [← @identityAlreadyValidated_learnIdentity pr p.node identity now i haddress]
        exact hivalid

end Node

/-! ### One call -/

namespace Call
variable (pr : Primitives) (c : Call)

/-- A packet of suite 0 for this node that does not verify comes from a source not known,
is no HELLO accepted for a known peer and brings no known or valid identity, as an answer
to WHOIS, of a source with packets waiting; and a HELLO accepted for a known address
carries the key held. -/
structure SourceSound : Prop where
  held : c.HelloKeepsKey pr
  source : c.before.forUs c.data = true → (PacketHeader.read c.data).cipherSuite = Constants.cipherNone →
    c.before.verifiesUnderSource pr c.data = false →
      c.before.topology.getPeer (PacketHeader.read c.data).source = none ∧
      (∀ identity, c.helloAccepted pr = some identity →
        c.before.topology.getPeer identity.address.bytes = none) ∧
      ∀ identities, c.verb pr = some .ok → Node.whoisIdentities c.data = some identities →
        ∀ w ∈ c.before.pendingEncryptedPackets, ∀ i ∈ identities,
          (c.before.identityAlreadyValidated i || i.validateAddress pr) = true → i.address.bytes ≠ w.source

variable {pr c}

/-- A packet that does not verify under its source leaves the known peers as they were. -/
theorem Made.keepsKnown (h : c.Made pr) (hagreed : SessionsAgreed pr c.before) (hsound : c.SourceSound pr)
    (hwhole : isFragment c.data = false) (hforged : c.before.verifiesUnderSource pr c.data = false) :
    KeepsKnown c.before c.after := by
  obtain ⟨recv, p, hp, hafter, -⟩ := h
  suffices hsuff : KeepsKnown c.before p.node by
    rw [hafter]
    exact hsuff
  rcases Node.receiveBody_cases pr recv hp with ⟨hfrag, -⟩ | ⟨hfrag, -⟩ | ⟨n', hadmitted, rfl⟩ | ⟨d, hadmitted, hd⟩
  · rw [hwhole] at hfrag
    cases hfrag
  · rw [hwhole] at hfrag
    cases hfrag
  · obtain ⟨-, rfl | rfl | rfl⟩ := Node.admitPacket_finished hadmitted
    · exact .of_topology rfl
    · exact .of_topology (Node.onlySends_handleRelay pr { c.before with actions := [] } c.data c.now).topology
    · refine .of_topology ?_
      unfold Node.dropUnopened
      simp only
      split <;> rfl
  · have hcd := Call.dispatched_eq_some.mpr hadmitted
    obtain ⟨hfrag, hlen, hdest, -, -, hnode, ⟨-, hsuite, hpacket, -⟩ | ⟨opened, hopen, -⟩⟩ :=
      Node.admitPacket_dispatch hadmitted
    · have hus : c.before.forUs c.data = true := by simp [Node.forUs, hfrag, hlen, hdest]
      obtain ⟨hunknown, hhello, hwhois⟩ := hsound.source hus hsuite hforged
      have hget : ∀ a, d.node.topology.getPeer a = c.before.topology.getPeer a := by
        intro a
        rw [hnode]
        exact Node.getPeer_modifyPeer_unknown (n := { c.before with actions := [] }) hunknown _ a
      have hnoted : KeepsKnown c.before d.node := fun a peer ha => (hget a).trans ha
      have hsource : d.node.topology.getPeer (PacketHeader.read d.packet).source = none := by
        rw [hget, hpacket]
        exact hunknown
      rcases Node.dispatch_cases pr recv hd with ⟨hverb, identities, hids, hfold⟩ | ⟨halone, -, -⟩
      · refine hnoted.trans (Node.keepsKnown_resolve hfold ?_)
        intro w hw i hi hvalid
        have hcverb : c.verb pr = some .ok := by simp [Call.verb, hcd, hverb]
        rw [hnode] at hw
        rw [hpacket] at hids
        rw [identityAlreadyValidated_dispatched hcd] at hvalid
        exact hwhois identities hcverb hids w hw i hi hvalid
      · refine hnoted.trans ?_
        rcases Node.handleAlone_peers pr halone with hkeeps | ⟨hverb, heq⟩ | ⟨-, heq⟩ | ⟨-, echo, heq⟩
        · exact .of_topology hkeeps.topology
        · rw [heq]
          refine Node.keepsKnown_handleHello _ _ _ _ ?_
          intro hello rest hread hopens hversion hvalid
          rw [hget]
          exact hhello _ (helloAccepted_of hcd hverb hread hopens hversion hvalid)
        · rw [heq]
          unfold Node.handlePushDirectPaths
          split
          · exact .refl _
          · simp only [hsource]
            exact .refl _
        · rw [heq]
          intro a peer ha
          exact (Node.getPeer_modifyPeer_unknown hsource _ a).trans ha
    · rw [Node.verifiesUnderSource_of_dearmor pr hagreed hlen hopen] at hforged
      cases hforged

end Call

namespace Service

/-- In every run whose calls are all sound, a packet that does not verify under its
source leaves every known peer as it was: its paths, their flags and times, and its
session. -/
theorem run_unverified_keeps_peers (pr : Primitives) (identity : Identity) (planetData : Bytes)
    (initialPacketId : UInt64) (start n : Node) (t : List (Entry Node Event Output))
    (hstart : Node.new identity planetData initialPacketId = .ok start) (hrun : NodeRun pr start t n)
    (hsound : ∀ e ∈ t, ∀ c ∈ e.output.calls, c.SourceSound pr) :
    ∀ e ∈ t, ∀ c ∈ e.output.calls, isFragment c.data = false →
      c.before.verifiesUnderSource pr c.data = false →
        ∀ a peer, c.before.topology.getPeer a = some peer → c.after.topology.getPeer a = some peer := by
  intro e he c hc hwhole hforged
  have hinv := run_invariant Call.sessionsAgreed_invariant (fun _ => True)
    (fun e he _ hnot hn => step_sessionsAgreed he hnot hn) hrun (SessionsAgreed.new hstart)
    (fun e he => ⟨trivial, fun c hc => (hsound e he c hc).held⟩)
  exact (run_made hrun e he c hc).keepsKnown ((hinv e he).2 c hc) (hsound e he c hc) hwhole hforged

/-- A HELLO in the name of root number 2, with its identity and without a MAC. -/
def sampleForgedHello : Bytes :=
  plainHeader 7 (Sample.identity 1).address.bytes (Sample.identity 2).address.bytes 0x00 Verb.hello.toByte ++
    (HelloPayload.new { Sample.identity 2 with secret := none } 1000
      (.fromSocketAddr (Sample.endpoint 66))).serialize

/-- A node that has just started takes the address the forged HELLO came from for a path
of the root. -/
theorem forgedHello_adds_path : ∃ (start n : Node) (t : List (Entry Node Event Output)),
    Node.new (Sample.identity 1) Sample.planet.serialize 1 = .ok start ∧
    NodeRun Sample.primitives start t n ∧ ∃ e ∈ t, ∃ c ∈ e.output.calls, isFragment c.data = false ∧
      c.before.verifiesUnderSource Sample.primitives c.data = false ∧
      (c.before.topology.getPeer (Sample.identity 2).address.bytes).map
        (fun peer => peer.paths.map Path.address) = some [Sample.endpoint 20, Sample.endpoint 21] ∧
      (c.after.topology.getPeer (Sample.identity 2).address.bytes).map
        (fun peer => peer.paths.map Path.address) =
          some [Sample.endpoint 20, Sample.endpoint 21, Sample.endpoint 66] := by
  have hcheck : okWith (step Sample.primitives Sample.start
      (.receive sampleForgedHello (Sample.endpoint 66) 1000)) (fun r => r.2.calls.any fun c =>
        ! isFragment c.data && ! c.before.verifiesUnderSource Sample.primitives c.data &&
          (c.before.topology.getPeer (Sample.identity 2).address.bytes).map
            (fun peer => peer.paths.map Path.address) = some [Sample.endpoint 20, Sample.endpoint 21] &&
          (c.after.topology.getPeer (Sample.identity 2).address.bytes).map
            (fun peer => peer.paths.map Path.address) =
              some [Sample.endpoint 20, Sample.endpoint 21, Sample.endpoint 66]) = true := by
    decide +kernel
  obtain ⟨⟨n', o⟩, hstep, hall⟩ := exists_of_okWith hcheck
  obtain ⟨c, hc, hprop⟩ := List.any_eq_true.mp hall
  simp only [Bool.and_eq_true, decide_eq_true_eq, Bool.not_eq_true'] at hprop
  exact ⟨Sample.start, n', _, Sample.new_start, Run.one hstep, _, List.mem_singleton.mpr rfl, c, hc,
    hprop.1.1.1, hprop.1.1.2, hprop.1.2, hprop.2⟩

/-- An encrypted packet in the name of root number 2, without a MAC. -/
def sampleForgedEcho : Bytes :=
  encryptedVerbPacket 7 (Sample.identity 2).address.bytes (Sample.identity 1).address.bytes .echo [0x68, 0x69]

/-- It is dropped, and the root keeps its paths. -/
theorem run_unverified_keeps_peers_echo : ∃ n t, NodeRun Sample.primitives Sample.start t n ∧
    ∃ e ∈ t, ∃ c ∈ e.output.calls, c.before.verifiesUnderSource Sample.primitives c.data = false ∧
      ∃ peer, c.before.topology.getPeer (Sample.identity 2).address.bytes = some peer ∧
        c.after.topology.getPeer (Sample.identity 2).address.bytes = some peer := by
  have hcheck : okWith (step Sample.primitives Sample.start
      (.receive sampleForgedEcho (Sample.endpoint 66) 1000)) (fun r => ! r.2.calls.isEmpty &&
        r.2.calls.all fun c => ! isFragment c.data && (c.dispatched Sample.primitives).isNone &&
          (PacketHeader.read c.data).cipherSuite = Constants.cipherSalsa2012 &&
          ! c.before.verifiesUnderSource Sample.primitives c.data &&
          (c.before.topology.getPeer (Sample.identity 2).address.bytes).isSome) = true := by
    decide +kernel
  obtain ⟨⟨n', o⟩, hstep, hall⟩ := exists_of_okWith hcheck
  rw [Bool.and_eq_true, List.all_eq_true] at hall
  simp only [Bool.and_eq_true, decide_eq_true_eq, Bool.not_eq_true', Option.isNone_iff_eq_none] at hall
  have hrun := Run.one hstep
  obtain ⟨c, hc⟩ := List.exists_mem_of_ne_nil o.calls (by simpa using hall.1)
  have hsound : ∀ c ∈ o.calls, c.SourceSound Sample.primitives := by
    intro c hc
    obtain ⟨⟨⟨⟨-, hnone⟩, hsuite⟩, -⟩, -⟩ := hall.2 c hc
    refine ⟨fun identity peer haccepted => ?_, fun _ hplain => ?_⟩
    · rw [Call.helloAccepted, hnone] at haccepted
      cases haccepted
    · rw [hsuite] at hplain
      exact absurd hplain (by decide)
  obtain ⟨⟨⟨⟨hwhole, -⟩, -⟩, hforged⟩, hsome⟩ := hall.2 c hc
  obtain ⟨peer, hpeer⟩ := Option.isSome_iff_exists.mp hsome
  have hkeeps := run_unverified_keeps_peers Sample.primitives _ _ _ _ n' _ Sample.new_start hrun
    (by simpa using hsound) _ (List.mem_singleton.mpr rfl) c hc hwhole hforged
  exact ⟨n', _, hrun, _, List.mem_singleton.mpr rfl, c, hc, hforged, peer, hpeer, hkeeps _ _ hpeer⟩

end Service

end ManyTier
