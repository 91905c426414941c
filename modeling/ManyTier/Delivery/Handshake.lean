import ManyTier.Delivery.Frames
import ManyTier.Protocol.RoundTrip

/-! The handshake: a HELLO and the answer to it.

A HELLO is sealed under the key its sender agrees with the receiver, but stays in the
clear: the receiver reads from it the identity it needs to check the MAC. Behind the
fields it reads stand four bytes it does not, the encrypted moon count and an empty
certificate; they are too few for a moon record. `receivePacket_hello` is what a receiver
makes of a HELLO, `receivePacket_okHello` what the sender makes of the answer, and
`handshake_agrees` puts the two together. -/
namespace ManyTier

/-! ### Packets in the clear -/

/-- A packet of suite 0: its MAC field is filled and the rest is as it was. -/
theorem armor_plain (pr : Primitives) (secret : Secret) (packetId : UInt64) (dest source : ByteVec 5) (verb : UInt8)
    (payload : Bytes) :
    ∃ mac, Salsa.armorPacket pr secret (plainHeader packetId dest source 0 verb ++ payload) false =
        .ok (PacketHeader.toBytes ⟨fieldAt 8 (be64 packetId) 0, dest, source, 0, mac, verb⟩ ++ payload) ∧
      Salsa.macVerifies pr secret
        (PacketHeader.toBytes ⟨fieldAt 8 (be64 packetId) 0, dest, source, 0, mac, verb⟩ ++ payload) = true := by
  set packet := plainHeader packetId dest source 0 verb ++ payload with hpacket
  have hlen : Salsa.packetMinLen ≤ packet.length := by simp [hpacket, Salsa.packetMinLen]
  have hflags : byteAt packet 18 = 0 := congrArg PacketHeader.flags (read_plainHeader packetId dest source 0 verb payload)
  have hplain : Salsa.cipherSuite packet ≠ 1 := by
    simp [Salsa.cipherSuite, Salsa.packetFlagsOffset, hflags]
  obtain ⟨sealed, mac, harmor, -, htake, hmac, hopen⟩ := Salsa.dearmorPacket_armorPacket pr secret packet false hlen
    ⟨fun h => absurd h Bool.false_ne_true, fun h => absurd h hplain⟩
  have hsame : sealed = Salsa.withMac packet mac := by
    unfold Salsa.dearmorPacket at hopen
    split at hopen
    · cases hopen
    · split at hopen
      · cases hopen
      · rw [if_neg (by rw [Salsa.cipherSuite_eq_of_take htake]; exact hplain)] at hopen
        exact Except.ok.inj hopen
  rw [hpacket, plainHeader_eq, PacketHeader.withMac_toBytes] at hsame
  exact ⟨mac, by rw [harmor, hsame], by rw [← hsame]; exact hmac⟩

namespace RootManager

/-- The HELLO that goes out: sealed, but not encrypted. -/
def sealedHello (pr : Primitives) (ourIdentity : Identity) (destAddress : ByteVec 5) (destPhysical : SocketAddr)
    (now : UInt64) (sharedSecret : Secret) (planetWorldId planetWorldTimestamp : UInt64) : Except CryptoError Bytes := do
  let packet ← buildHello pr ourIdentity destAddress destPhysical now sharedSecret planetWorldId planetWorldTimestamp
  Salsa.armorPacket pr sharedSecret packet false

/-- What a HELLO says. -/
def helloPayload (ourIdentity : Identity) (destPhysical : SocketAddr) (now planetWorldId planetWorldTimestamp : UInt64) :
    HelloPayload :=
  { HelloPayload.new ourIdentity.withoutSecret now (.fromSocketAddr destPhysical) with
    planetWorldId, planetWorldTimestamp }

end RootManager

/-- A field combined with the keystream of the bare secret, where there is a field. -/
theorem cryptPacketField_eq (pr : Primitives) (secret : Secret) (front field rest : Bytes)
    (hlen : Salsa.packetMinLen ≤ front.length) :
    ∃ sealed, sealed.length = field.length ∧
      Salsa.cryptPacketField pr secret (front ++ field ++ rest) front.length field.length =
        .ok (front ++ (sealed ++ rest)) := by
  have hslice : slice (front ++ field ++ rest) front.length field.length = field := by
    rw [List.append_assoc]
    exact slice_of_drop (List.drop_left' rfl) rfl
  have hlong : ¬ ((front ++ field ++ rest).length < Salsa.packetMinLen ∨ (front ++ field ++ rest).length < front.length ∨
      (front ++ field ++ rest).length < front.length + field.length) := by
    simp only [List.length_append]
    omega
  obtain ⟨ks, hcrypt⟩ : ∃ ks, Salsa.cryptPacketField pr secret (front ++ field ++ rest) front.length field.length =
      .ok (overwrite (front ++ field ++ rest) front.length (xorStream ks field)) := by
    rw [Salsa.cryptPacketField, if_neg hlong]
    simp only [hslice]
    exact ⟨_, rfl⟩
  refine ⟨xorStream ks field, length_xorStream ks field, ?_⟩
  rw [hcrypt, overwrite, length_xorStream, List.append_assoc front field rest, List.take_left' rfl, ← List.drop_drop,
    List.drop_left' rfl, List.drop_left' rfl, List.append_assoc]

/-- A sealed HELLO is a header, the payload and four bytes more. -/
theorem sealedHello_eq (pr : Primitives) (ourIdentity : Identity) (dest : ByteVec 5) (target : SocketAddr)
    (now : UInt64) (secret : Secret) (worldId worldTimestamp : UInt64) :
    ∃ packet mac, ∃ tail : Bytes,
      RootManager.sealedHello pr ourIdentity dest target now secret worldId worldTimestamp = .ok packet ∧
      packet = PacketHeader.toBytes ⟨fieldAt 8 (be64 now) 0, dest, ourIdentity.address.bytes, 0, mac,
        Verb.hello.toByte⟩ ++ ((RootManager.helloPayload ourIdentity target now worldId worldTimestamp).serialize ++ tail) ∧
      tail.length = 4 ∧ Salsa.macVerifies pr secret packet = true := by
  set header := plainHeader now dest ourIdentity.address.bytes 0 Verb.hello.toByte with hheader
  set payload := (RootManager.helloPayload ourIdentity target now worldId worldTimestamp).serialize with hpayload
  obtain ⟨count, hcount, hcrypt⟩ := cryptPacketField_eq pr secret (header ++ payload) (be16 0) [0x00, 0x00]
    (by simp [hheader, Salsa.packetMinLen])
  have hbuild : RootManager.buildHello pr ourIdentity dest target now secret worldId worldTimestamp =
      .ok (header ++ (payload ++ (count ++ [0x00, 0x00]))) := by
    rw [← List.append_assoc header]
    exact hcrypt
  obtain ⟨mac, harmor, hmac⟩ := armor_plain pr secret now dest ourIdentity.address.bytes Verb.hello.toByte
    (payload ++ (count ++ [0x00, 0x00]))
  refine ⟨_, mac, count ++ [0x00, 0x00], ?_, rfl, by simp [hcount], hmac⟩
  rw [RootManager.sealedHello, hbuild, ok_bind]
  exact harmor

/-! ### The receiver -/

namespace Node
variable {pr : Primitives} {b : Node}

/-- A HELLO in the clear is not opened before its handler. -/
theorem admitPacket_plainHello {iv mac : ByteVec 8} {source : ByteVec 5} {payload : Bytes}
    (hsource : byteAt source.toBytes 0 ≠ 0xff) (fromAddr : SocketAddr) (now : UInt64) :
    let packet := PacketHeader.toBytes ⟨iv, b.address, source, 0, mac, Verb.hello.toByte⟩ ++ payload
    b.admitPacket pr packet fromAddr now = .dispatch
      { node := noteSource { b with actions := [] } source fromAddr now, packet, verbId := Verb.hello.toByte, source
        packetId := ofBe64 iv.toBytes } := by
  intro packet
  have hread : PacketHeader.read packet = ⟨iv, b.address, source, 0, mac, Verb.hello.toByte⟩ :=
    PacketHeader.read_toBytes _ payload
  have hfirst : byteAt packet 13 = byteAt source.toBytes 0 := by
    rw [← show (PacketHeader.read packet).source = source by rw [hread]]
    exact (byteAt_fieldAt packet 13 0 (by decide)).symm
  have hnotFragment : isFragment packet = false := by
    simp [isFragment, hfirst, Constants.fragmentIndicator, hsource]
  have hlong : ¬ packet.length < Constants.minPacketLength := by simp [packet, Constants.minPacketLength]
  have hsuite : (PacketHeader.read packet).cipherSuite = Constants.cipherNone := by
    rw [hread]
    exact show ((0 : UInt8) >>> 3) &&& 0x07 = Constants.cipherNone by decide
  have hverb : (PacketHeader.read packet).verb = Verb.hello.toByte := by rw [hread]
  have hclosed : Node.dearmor pr { b with actions := [] } packet = none := by
    unfold dearmor
    simp only [hsuite, hverb, if_true]
    rfl
  unfold admitPacket
  simp only [hnotFragment, Bool.false_eq_true, if_false, if_neg hlong, hclosed]
  rw [if_neg (by rw [hread]; exact fun h => h rfl), if_neg (by rw [hsuite]; exact fun h => h rfl)]
  simp only [handOn, hread]
  rfl

/-- A HELLO that opens, of a version that is served, with an identity that is valid. -/
theorem handleHello_accepted {n : Node} {packet : Bytes} {hello : HelloPayload} {consumed : Nat} {secret : Secret}
    (hread : HelloPayload.deserialize (packet.drop Constants.minPacketLength) = .ok (hello, consumed))
    (hopens : n.helloOpens pr packet hello = some secret) (hversion : protoVersionMin ≤ hello.protocolVersion)
    (hvalid : hello.identity.validateAddress pr = true) (fromAddr : SocketAddr) (now packetId : UInt64) :
    n.handleHello pr packet fromAddr now packetId = n.acceptHello pr packet hello secret fromAddr now packetId := by
  unfold handleHello
  rw [hread]
  simp only [hopens]
  rw [if_neg (by simpa using hversion), hvalid]
  simp

/-- The answer is the one thing an accepted HELLO sends. -/
theorem acceptHello_sends (n : Node) (packet : Bytes) (hello : HelloPayload) (secret : Secret) (fromAddr : SocketAddr)
    (now packetId : UInt64) :
    ∃ answer, Salsa.armorPacket pr secret (RootManager.buildOkHello n.identity hello.identity.address.bytes packetId
        hello.timestamp now) true = .ok answer ∧
      (n.acceptHello pr packet hello secret fromAddr now packetId).actions = n.actions ++ [.sendTo answer fromAddr] := by
  obtain ⟨answer, -, harmor, -⟩ := dearmor_encrypted pr secret now hello.identity.address.bytes
    n.identity.address.bytes Verb.ok.toByte (OkPayload.serialize ⟨.hello, packetId,
      .hello hello.timestamp HelloPayload.advertisedProtocolVersion 0 1 0 none⟩)
  refine ⟨answer, harmor, ?_⟩
  unfold acceptHello
  simp only
  rw [sendArmored, show Salsa.armorPacket pr secret (RootManager.buildOkHello _ _ _ _ _) true = .ok answer from harmor]
  rfl

/-- Its sender has a session then; the identity held for its address, if there is one, stays. -/
theorem acceptHello_peer (n : Node) (packet : Bytes) (hello : HelloPayload) (secret : Secret) (fromAddr : SocketAddr)
    (now packetId : UInt64) :
    ∃ peer, (n.acceptHello pr packet hello secret fromAddr now packetId).topology.getPeer
        hello.identity.address.bytes = some peer ∧
      peer.state = .newActive pr secret 0 now now ∧
      peer.identity = ((n.topology.getPeer hello.identity.address.bytes).map Peer.identity).getD
        hello.identity.withoutSecret := by
  set address := hello.identity.address.bytes with haddress
  have hadded : ∃ p, (n.topology.addPeer { hello.identity with secret := none }).getPeer address = some p ∧
      p.identity = ((n.topology.getPeer address).map Peer.identity).getD hello.identity.withoutSecret := by
    rw [Topology.getPeer_addPeer]
    cases hheld : n.topology.getPeer address with
    | none => exact ⟨_, if_pos ⟨rfl, rfl⟩, rfl⟩
    | some p => exact ⟨p, if_neg (fun h => nomatch h.2), rfl⟩
  obtain ⟨p, hp, hid⟩ := hadded
  refine ⟨{ p.addPath fromAddr (arrivedDirectly packet) now with state := .newActive pr secret 0 now now }, ?_, rfl, ?_⟩
  · unfold acceptHello
    simp only
    rw [(onlySends_sendArmored pr _ secret _ true fromAddr).topology]
    show ((n.topology.addPeer _).modifyPeer address _).getPeer address = _
    rw [Topology.getPeer_modifyPeer, if_pos rfl, hp]
    rfl
  · show (p.addPath fromAddr (arrivedDirectly packet) now).identity = _
    rw [Peer.identity_addPath, hid]

/-- What a node makes of a HELLO sealed under the key it agrees with the identity in it. -/
theorem receivePacket_hello {ours : SecretKey} (hours : b.identity.secret = some ours) {sender : Identity}
    (hfirst : byteAt sender.address.bytes.toBytes 0 ≠ 0xff) (hvalid : sender.validateAddress pr = true)
    (target fromAddr : SocketAddr) (sent worldId worldTimestamp now : UInt64) :
    let secret := KeyAgreement.keyAgree pr ours.dh sender.publicKey.dh
    ∃ packet answer consumed r peer,
      RootManager.sealedHello pr sender b.address target sent secret worldId worldTimestamp = .ok packet ∧
      Salsa.macVerifies pr secret packet = true ∧
      HelloPayload.deserialize (packet.drop Constants.minPacketLength) =
        .ok (RootManager.helloPayload sender target sent worldId worldTimestamp, consumed) ∧
      Salsa.armorPacket pr secret (RootManager.buildOkHello b.identity sender.address.bytes sent sent now) true =
        .ok answer ∧
      b.receivePacket pr packet fromAddr now = .ok r ∧ r.actions = [.sendTo answer fromAddr] ∧
      r.node.identity = b.identity ∧ r.node.topology.getPeer sender.address.bytes = some peer ∧
    peer.state = .newActive pr secret 0 now now ∧
      peer.identity = ((b.topology.getPeer sender.address.bytes).map Peer.identity).getD sender.withoutSecret := by
  intro secret
  obtain ⟨packet, mac, tail, hsealed, hpacket, htail, hmac⟩ :=
    sealedHello_eq pr sender b.address target sent secret worldId worldTimestamp
  set hello := RootManager.helloPayload sender target sent worldId worldTimestamp with hhello
  have hread : HelloPayload.deserialize (packet.drop Constants.minPacketLength) =
      .ok (hello, hello.serialize.length) := by
    have hdrop : packet.drop Constants.minPacketLength = hello.serialize ++ tail := by
      rw [hpacket]
      exact List.drop_left' (by simp [Constants.minPacketLength])
    rw [hdrop]
    exact HelloPayload.deserialize_serialize hello tail (by omega)
  set noted := noteSource { b with actions := [] } sender.address.bytes fromAddr now with hnoted
  have hadmitted : b.admitPacket pr packet fromAddr now = .dispatch
      { node := noted, packet, verbId := Verb.hello.toByte, source := sender.address.bytes, packetId := sent } := by
    rw [hpacket]
    exact (admitPacket_plainHello hfirst fromAddr now).trans (by rw [ofBe64_fieldAt_be64])
  have hopened : (Salsa.dearmorPacket pr secret packet).isOk = true := by
    obtain ⟨opened, hopened⟩ := (isOk_dearmorPacket (by simp [hpacket, Constants.minPacketLength])).mpr hmac
    rw [hopened]
    rfl
  have hopens : noted.helloOpens pr packet hello = some secret := by
    have hsecret : noted.identity.secret = some ours := hours
    unfold helloOpens
    rw [hsecret, Option.bind_some]
    exact if_pos hopened
  have hcarried : hello.identity.validateAddress pr = true := by
    rw [Identity.validateAddress_iff] at hvalid ⊢
    exact hvalid
  have hhandled := handleHello_accepted hread hopens (show protoVersionMin ≤ 11 by decide) hcarried fromAddr now sent
  obtain ⟨answer, hanswer, hsends⟩ := @acceptHello_sends pr noted packet hello secret fromAddr now sent
  obtain ⟨peer, hpeer, hstate, hid⟩ := @acceptHello_peer pr noted packet hello secret fromAddr now sent
  have hbody : receiveBody pr (receiveFuel pr (b.heldBytes + packet.length)) b packet fromAddr now =
      .ok ⟨noted.acceptHello pr packet hello secret fromAddr now sent, []⟩ := by
    unfold receiveBody
    rw [hadmitted]
    simp only [dispatch]
    rw [← hhandled]
    rfl
  obtain ⟨r, hr, hafter, hactions⟩ := receiveWith_of_body hbody
  refine ⟨packet, answer, _, r, peer, hsealed, hmac, hread, hanswer, hr, ?_, ?_, ?_, hstate, ?_⟩
  · rw [hactions, hsends]
    rfl
  · rw [hafter]
    exact (keepsNetworks_acceptHello ..).identity
  · rw [hafter]
    exact hpeer
  · rw [hid, hnoted]
    exact congrArg (Option.getD · _) (identity_noteSource { b with actions := [] } _ fromAddr now _)

/-! ### The answer -/

/-- The answer starts a session with the identity held. -/
theorem handleOkHello_peer {n : Node} {ours : SecretKey} (hours : n.identity.secret = some ours) {packet : Bytes}
    {held : Peer} (hheld : n.topology.getPeer (PacketHeader.read packet).source = some held) (echo : UInt64)
    (fromAddr : SocketAddr) (now : UInt64) :
    ∃ peer, (n.handleOkHello pr packet echo fromAddr now).topology.getPeer (PacketHeader.read packet).source = some peer ∧
      peer.identity = held.identity ∧
      peer.state = .newActive pr (KeyAgreement.keyAgree pr ours.dh held.identity.publicKey.dh)
        (satSub now echo).toUInt32 now now := by
  set settled := (held.establishSession pr ours.dh (satSub now echo).toUInt32 now).addPath fromAddr
    (arrivedDirectly packet) now with hsettled
  have hstate : settled.state = (held.establishSession pr ours.dh (satSub now echo).toUInt32 now).state := by
    rw [hsettled, Peer.addPath]
    split <;> rfl
  let timed (path : Path) : Path := { path with latencyMs := (satSub now echo).toUInt32 }
  refine ⟨{ settled with paths := modifyFirst (·.address = fromAddr) timed settled.paths }, ?_, ?_, hstate⟩
  · unfold handleOkHello
    show (n.topology.modifyPeer _ _).getPeer _ = _
    rw [Topology.getPeer_modifyPeer, if_pos rfl, hheld]
    simp only [hours]
    rfl
  · exact Peer.identity_addPath _ _ _ _

/-- What a node makes of the answer to a HELLO, sealed under the key it holds for the
peer that answers. -/
theorem receivePacket_okHello {a : Node} {ours : SecretKey} (hours : a.identity.secret = some ours)
    {answerer : Identity} (hfirst : byteAt answerer.address.bytes.toBytes 0 ≠ 0xff) {held : Peer}
    (hheld : a.topology.getPeer answerer.address.bytes = some held) {secret : Secret}
    (hsecret : a.sharedSecretForPeer pr answerer.address.bytes = some secret) {sent echo sealedAt : UInt64}
    {answer : Bytes}
    (hanswer : Salsa.armorPacket pr secret (RootManager.buildOkHello answerer a.address sent echo sealedAt) true =
      .ok answer) (fromAddr : SocketAddr) (now : UInt64) :
    ∃ r peer, a.receivePacket pr answer fromAddr now = .ok r ∧
      r.node.topology.getPeer answerer.address.bytes = some peer ∧ peer.identity = held.identity ∧
      peer.state = .newActive pr (KeyAgreement.keyAgree pr ours.dh held.identity.publicKey.dh)
        (satSub now echo).toUInt32 now now := by
  set ok : OkPayload := ⟨.hello, sent, .hello echo HelloPayload.advertisedProtocolVersion 0 1 0 none⟩ with hok
  have hsealed : Salsa.armorPacket pr secret
      (encryptedVerbPacket sealedAt answerer.address.bytes a.address .ok ok.serialize) true = .ok answer := hanswer
  obtain ⟨d, hadmitted, hverb, hnode, hsource, hpayload⟩ := admitPacket_sealed hsealed hsecret hfirst fromAddr now
  have hread : OkPayload.deserialize (d.packet.drop Constants.minPacketLength) = .ok ok := by
    rw [hpayload, OkPayload.deserialize_serialize ok ⟨rfl, nofun⟩]
    rfl
  have hbody : receiveBody pr (receiveFuel pr (a.heldBytes + answer.length)) a answer fromAddr now =
      .ok ⟨d.node.handleOkHello pr d.packet echo fromAddr now, []⟩ := by
    unfold receiveBody dispatch handleOk
    rw [hadmitted]
    simp only [hverb, hread, hok]
  obtain ⟨r, hr, hafter, -⟩ := receiveWith_of_body hbody
  have hnoted : d.node.topology.getPeer answerer.address.bytes =
      some (heardFrom (Node.isRelayed { a with actions := [] } answerer.address.bytes fromAddr) fromAddr now held) := by
    rw [hnode]
    show (a.topology.modifyPeer _ _).getPeer _ = _
    rw [Topology.getPeer_modifyPeer, if_pos rfl, hheld]
    rfl
  have hours' : d.node.identity.secret = some ours := by
    rw [hnode]
    exact hours
  rw [← hsource, ← source_dispatch hadmitted] at hnoted ⊢
  obtain ⟨peer, hpeer, hid, hstate⟩ := handleOkHello_peer hours' hnoted echo fromAddr now
  rw [Peer.identity_heardFrom] at hid hstate
  exact ⟨r, peer, hr, by rw [hafter]; exact hpeer, hid, hstate⟩

end Node

/-! ### Both sides -/

/-- Two nodes of which the first can greet the second: it knows its identity, and the
second holds no other identity for its address. -/
structure Acquainted (pr : Primitives) (a b : Node) (oursA oursB : SecretKey) : Prop where
  secretA : a.identity.secret = some oursA
  secretB : b.identity.secret = some oursB
  ownA : a.identity.publicKey.dh = pr.x25519Public oursA.dh
  ownB : b.identity.publicKey.dh = pr.x25519Public oursB.dh
  distinct : a.address ≠ b.address
  firstA : byteAt a.address.toBytes 0 ≠ 0xff
  firstB : byteAt b.address.toBytes 0 ≠ 0xff
  valid : a.identity.validateAddress pr = true
  known : ∃ peer, a.topology.getPeer b.address = some peer ∧ peer.identity.publicKey = b.identity.publicKey ∧
    ∀ secret, peer.sharedSecret = some secret →
      secret = KeyAgreement.keyAgree pr oursA.dh b.identity.publicKey.dh
  held : ∀ peer, b.topology.getPeer a.address = some peer → peer.identity.publicKey = a.identity.publicKey

/-- The handshake: the HELLO passes the receiver's MAC check and says what the sender put
in, the receiver answers once, and both have the session, under one secret. -/
theorem handshake_agrees {pr : Primitives} (hcommutes : KeyAgreement.Commutes pr) {a b : Node}
    {oursA oursB : SecretKey} (h : Acquainted pr a b oursA oursB) (target fromA fromB : SocketAddr)
    (sent received answered worldId worldTimestamp : UInt64) :
    ∃ packet hello consumed answer rb ra peerA peerB,
      RootManager.sealedHello pr a.identity b.address target sent
        (KeyAgreement.keyAgree pr oursA.dh b.identity.publicKey.dh) worldId worldTimestamp = .ok packet ∧
      Salsa.macVerifies pr (KeyAgreement.keyAgree pr oursB.dh a.identity.publicKey.dh) packet = true ∧
      HelloPayload.deserialize (packet.drop Constants.minPacketLength) = .ok (hello, consumed) ∧
      hello.identity = a.identity.withoutSecret ∧ hello.timestamp = sent ∧
      hello.destAddress = .fromSocketAddr target ∧ hello.planetWorldId = worldId ∧
      hello.planetWorldTimestamp = worldTimestamp ∧ hello.moonRecords = [] ∧
      b.receivePacket pr packet fromA received = .ok rb ∧
      Salsa.armorPacket pr (KeyAgreement.keyAgree pr oursB.dh a.identity.publicKey.dh)
        (RootManager.buildOkHello b.identity a.address sent sent received) true = .ok answer ∧
      rb.actions = [.sendTo answer fromA] ∧
      a.receivePacket pr answer fromB answered = .ok ra ∧
      rb.node.topology.getPeer a.address = some peerA ∧ peerA.identity.publicKey = a.identity.publicKey ∧
      ra.node.topology.getPeer b.address = some peerB ∧ peerB.identity.publicKey = b.identity.publicKey ∧
      peerA.state = .newActive pr (KeyAgreement.keyAgree pr oursB.dh a.identity.publicKey.dh) 0 received received ∧
      peerB.state = .newActive pr (KeyAgreement.keyAgree pr oursA.dh b.identity.publicKey.dh)
        (satSub answered sent).toUInt32 answered answered ∧
      peerA.sharedSecret = peerB.sharedSecret := by
  have hagree : KeyAgreement.keyAgree pr oursB.dh a.identity.publicKey.dh =
      KeyAgreement.keyAgree pr oursA.dh b.identity.publicKey.dh := by
    rw [h.ownA, h.ownB, hcommutes]
  obtain ⟨packet, answer, consumed, rb, peerA, hsealed, hmac, hread, hanswer, hrb, hactions, -, hpeerA, hstateA, hidA⟩ :=
    Node.receivePacket_hello h.secretB h.firstA h.valid target fromA sent worldId worldTimestamp received
  obtain ⟨held, hheld, hkey, hsession⟩ := h.known
  have hsecret : a.sharedSecretForPeer pr b.address =
      some (KeyAgreement.keyAgree pr oursB.dh a.identity.publicKey.dh) := by
    rw [hagree, Node.sharedSecretForPeer, hheld, Option.bind_some]
    cases hshared : held.sharedSecret with
    | some secret => rw [hsession secret hshared]
    | none => simp only [h.secretA, Option.map_some, hkey]
  obtain ⟨ra, peerB, hra, hpeerB, hidB, hstateB⟩ :=
    Node.receivePacket_okHello h.secretA h.firstB hheld hsecret hanswer fromB answered
  have hpublicA : peerA.identity.publicKey = a.identity.publicKey := by
    rw [hidA]
    cases hpeer : b.topology.getPeer a.identity.address.bytes with
    | none => rfl
    | some peer => exact h.held peer hpeer
  rw [hagree] at hsealed
  rw [hkey] at hstateB
  refine ⟨packet, _, consumed, answer, rb, ra, peerA, peerB, hsealed, hmac, hread, rfl, rfl, rfl, rfl, rfl, rfl, hrb,
    hanswer, hactions, hra, hpeerA, hpublicA, hpeerB, by rw [hidB, hkey], hstateA, hstateB, ?_⟩
  rw [Peer.sharedSecret, Peer.sharedSecret, hstateA, hstateB, ← hagree]
  rfl

/-- Number 1 greets root number 2, which knows nothing of it. -/
theorem acquainted_root : Acquainted Sample.validating Sample.start { Sample.start with identity := Sample.identity 2 }
    ⟨Sample.key 1, Sample.key 1⟩ ⟨Sample.key 2, Sample.key 2⟩ where
  secretA := rfl
  secretB := rfl
  ownA := rfl
  ownB := rfl
  distinct := by decide
  firstA := by decide
  firstB := by decide
  valid := Sample.validateAddress_validating rfl
  known := by
    have hroot : (Sample.start.topology.getPeer (Sample.identity 2).address.bytes).any (fun peer =>
        peer.identity.publicKey = (Sample.identity 2).publicKey ∧ peer.sharedSecret = none) = true := by decide
    obtain ⟨peer, hpeer, hall⟩ := (Option.any_eq_true _ _).mp hroot
    simp only [decide_eq_true_eq] at hall
    refine ⟨peer, hpeer, hall.1, ?_⟩
    intro secret hsecret
    cases hall.2.symm.trans hsecret
  held := by
    have hnone : Sample.start.topology.getPeer (Sample.identity 1).address.bytes = none := by decide
    intro peer hpeer
    rw [show Node.address Sample.start = (Sample.identity 1).address.bytes from rfl] at hpeer
    cases hnone.symm.trans hpeer

/-- Both hold the secret of number 1 and root number 2 then. -/
theorem handshake_agrees_root : ∃ packet answer rb ra peerA peerB,
    RootManager.sealedHello Sample.validating (Sample.identity 1) (Sample.identity 2).address.bytes
      (Sample.endpoint 20) 1000 (KeyAgreement.keyAgree Sample.validating (Sample.key 1) (Sample.key 2)) 5 6 = .ok packet ∧
    Node.receivePacket Sample.validating { Sample.start with identity := Sample.identity 2 } packet
      (Sample.endpoint 10) 1005 = .ok rb ∧ rb.actions = [.sendTo answer (Sample.endpoint 10)] ∧
    Sample.start.receivePacket Sample.validating answer (Sample.endpoint 20) 1010 = .ok ra ∧
    rb.node.topology.getPeer (Sample.identity 1).address.bytes = some peerA ∧
    ra.node.topology.getPeer (Sample.identity 2).address.bytes = some peerB ∧
    peerA.sharedSecret = peerB.sharedSecret := by
  obtain ⟨packet, hello, consumed, answer, rb, ra, peerA, peerB, hsealed, -, -, -, -, -, -, -, -, hrb, -, hactions, hra,
    hpeerA, -, hpeerB, -, -, -, hsame⟩ := handshake_agrees Sample.commutes_validating acquainted_root
      (Sample.endpoint 20) (Sample.endpoint 10) (Sample.endpoint 20) 1000 1005 1010 5 6
  exact ⟨packet, answer, rb, ra, peerA, peerB, hsealed, hrb, hactions, hra, hpeerA, hpeerB, hsame⟩

end ManyTier
