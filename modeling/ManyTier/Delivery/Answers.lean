import ManyTier.Node.Whois
import ManyTier.Security.Origin
import ManyTier.Service.CredentialsPacket

/-! The answer of a controller, from node to node.

A request is answered with the chunks of the configuration and the credentials, each in a
packet of its own. In whatever order they arrive, the member that asked puts the chunks
together with the last of them, applies the configuration once and announces it, takes up
the certificate, and from then on trusts the members that are on record as authorised and
with an address (`join_completes`). -/
namespace ManyTier

namespace Service
variable {pr : Primitives}

/-! ### Reading a part -/

/-- What the handler gets of a chunk is the chunk, decompressed. -/
theorem handled_chunk (hlz4 : Lz4RoundTrips pr) {a : Armored} {packetId requestPacketId networkId configUpdateId : UInt64}
    {source dest : ByteVec 5} {signingKey : ByteVec 32} {dictData : Bytes} {i : Nat}
    (ha : a.packet = verbPacket pr packetId source dest .ok
      (chunkAnswer requestPacketId (chunkConfig pr signingKey networkId configUpdateId dictData i)) true) :
    a.handled pr =
      some (Verb.ok.toByte :: chunkAnswer requestPacketId (chunkConfig pr signingKey networkId configUpdateId dictData i)) := by
  set answer := chunkAnswer requestPacketId (chunkConfig pr signingKey networkId configUpdateId dictData i) with hanswer
  have hbyte : byteAt a.packet 27 = Verb.ok.toByte ||| Constants.verbFlagCompressed := by
    rw [ha]
    exact congrArg PacketHeader.verb (read_plainHeader packetId dest source encryptedFlags _ (pr.lz4Compress answer))
  have hlen : a.packet.length = 28 + (pr.lz4Compress answer).length := by
    simp [ha, verbPacket]
  have hdrop : a.packet.drop Constants.minPacketLength = pr.lz4Compress answer := by
    rw [ha]
    exact List.drop_left' (length_plainHeader ..)
  have hclear : pr.lz4Decompress (pr.lz4Compress answer)
      (Node.packetDecompressCapacity - Constants.minPacketLength) = some answer := by
    apply hlz4
    have := length_chunkAnswer pr signingKey requestPacketId networkId configUpdateId dictData i
    simp only [Node.packetDecompressCapacity, Constants.minPacketLength, hanswer]
    omega
  have hshort : ¬ a.packet.length < Constants.minPacketLength := by
    simp [hlen, Constants.minPacketLength]
  rw [Armored.handled, hbyte, if_neg (by decide), Node.decompressPacket, if_neg hshort, hdrop, hclear, hbyte, Option.map_some,
    Option.map_some, List.drop_left' (by simp [hlen]; omega)]
  rfl

theorem verbId_chunk {a : Armored} {d : Dispatch} {packetId requestPacketId : UInt64} {source dest : ByteVec 5}
    {nc : NetworkConfigPayload} (ha : a.packet = verbPacket pr packetId source dest .ok (chunkAnswer requestPacketId nc) true)
    (hverb : d.verbId = byteAt a.packet 27 &&& 0x1f) : d.verbId = Verb.ok.toByte := by
  have hbyte : byteAt a.packet 27 = Verb.ok.toByte ||| Constants.verbFlagCompressed := by
    rw [ha]
    exact congrArg PacketHeader.verb (read_plainHeader packetId dest source encryptedFlags _ (pr.lz4Compress _))
  rw [hverb, hbyte]
  decide

/-- And the handler takes it up. -/
theorem configTaken_chunk (hlz4 : Lz4RoundTrips pr) {a : Armored} {d : Dispatch}
    {packetId requestPacketId networkId configUpdateId : UInt64} {source dest : ByteVec 5} {signingKey : ByteVec 32}
    {dictData : Bytes} {i : Nat} (ha : a.packet = verbPacket pr packetId source dest .ok
      (chunkAnswer requestPacketId (chunkConfig pr signingKey networkId configUpdateId dictData i)) true)
    (hhandled : a.handled pr = some (d.packet.drop 27)) (hverb : d.verbId = byteAt a.packet 27 &&& 0x1f) :
    Node.configTaken d = some (chunkConfig pr signingKey networkId configUpdateId dictData i) := by
  have hchunk := handled_chunk hlz4 ha
  have hpacket : d.packet.drop 27 =
      Verb.ok.toByte :: chunkAnswer requestPacketId (chunkConfig pr signingKey networkId configUpdateId dictData i) :=
    Option.some.inj (hhandled.symm.trans hchunk)
  have hpayload : d.packet.drop Constants.minPacketLength =
      chunkAnswer requestPacketId (chunkConfig pr signingKey networkId configUpdateId dictData i) := by
    show d.packet.drop (27 + 1) = _
    rw [← List.drop_drop, hpacket, List.drop_succ_cons, List.drop_zero]
  obtain ⟨ok, hread, hconfig⟩ := okConfig_chunkAnswer pr signingKey requestPacketId networkId configUpdateId dictData i
  unfold Node.configTaken
  rw [verbId_chunk ha hverb, Verb.fromByte_toByte]
  simp only [hpayload, hread, hconfig]

/-- What the handler gets of an encrypted packet is its verb and its payload. -/
theorem handled_encryptedVerbPacket {a : Armored} {packetId : UInt64} {source dest : ByteVec 5} {verb : Verb} {payload : Bytes}
    (ha : a.packet = encryptedVerbPacket packetId source dest verb payload) : a.handled pr = some (verb.toByte :: payload) := by
  have hbyte : byteAt a.packet 27 = verb.toByte := by
    rw [ha]
    exact congrArg PacketHeader.verb (read_plainHeader packetId dest source encryptedFlags _ payload)
  have hplain : verb.toByte &&& Constants.verbFlagCompressed = 0 := by
    cases verb <;> decide
  rw [Armored.handled, hbyte, if_pos hplain, ha]
  have hhead : (be64 packetId ++ (dest.toBytes ++ (source.toBytes ++ encryptedFlags :: List.replicate 8 0))).length = 27 := by
    simp
  simpa [encryptedVerbPacket, plainHeader] using @List.drop_left' _ _ (verb.toByte :: payload) _ hhead

/-- And the handler goes by the verb. -/
theorem read_encryptedVerbPacket {a : Armored} {d : Dispatch} {packetId : UInt64} {source dest : ByteVec 5} {verb : Verb}
    {payload : Bytes} (ha : a.packet = encryptedVerbPacket packetId source dest verb payload)
    (hhandled : a.handled pr = some (d.packet.drop 27)) (hverb : d.verbId = byteAt a.packet 27 &&& 0x1f) :
    Verb.fromByte d.verbId = some verb ∧ d.packet.drop Constants.minPacketLength = payload := by
  have hbyte : byteAt a.packet 27 = verb.toByte := by
    rw [ha]
    exact congrArg PacketHeader.verb (read_plainHeader packetId dest source encryptedFlags _ payload)
  have hplain : verb.toByte &&& 0x1f = verb.toByte := by
    cases verb <;> decide
  refine ⟨by rw [hverb, hbyte, hplain, Verb.fromByte_toByte], ?_⟩
  show d.packet.drop (27 + 1) = payload
  rw [← List.drop_drop, Option.some.inj (hhandled.symm.trans (handled_encryptedVerbPacket ha)),
    List.drop_succ_cons, List.drop_zero]

/-! ### The parts -/

/-- An answer, from a controller to the member that asked. -/
structure Answer where
  source : ByteVec 5
  requester : ByteVec 5
  signingKey : ByteVec 32
  requestPacketId : UInt64
  networkId : UInt64
  configUpdateId : UInt64
  dictData : Bytes
  credentials : NetworkCredentialsPayload

inductive AnswerPart where
  | chunk (k : Nat)
  | credentials
  deriving DecidableEq

namespace Answer
variable (pr) (x : Answer)

def count : Nat := chunkCount x.dictData networkConfigChunkBytes

def parts : List AnswerPart := (List.range x.count).map AnswerPart.chunk ++ [.credentials]

def chunk (k : Nat) : NetworkConfigPayload := chunkConfig pr x.signingKey x.networkId x.configUpdateId x.dictData k

/-- The packet of a part before it is sealed. -/
def packet (packetId : UInt64) : AnswerPart → Bytes
  | .chunk k => verbPacket pr packetId x.source x.requester .ok (chunkAnswer x.requestPacketId (x.chunk pr k)) true
  | .credentials => encryptedVerbPacket packetId x.source x.requester .networkCredentials x.credentials.serialize

/-- The datagram is the part, sealed by the node. -/
def SealedBy (n : Node) (secret : Secret) (part : AnswerPart) (data : Bytes) : Prop :=
  ∃ packetId, ⟨secret, x.packet pr packetId part⟩ ∈ n.armored ∧
    Salsa.armorPacket pr secret (x.packet pr packetId part) true = .ok data

/-- It is encrypted, and says from whom it is and for whom. -/
theorem read_packet (packetId : UInt64) (part : AnswerPart) : Salsa.cipherSuite (x.packet pr packetId part) = 1 ∧
    (PacketHeader.read (x.packet pr packetId part)).source = x.source ∧
    (PacketHeader.read (x.packet pr packetId part)).dest = x.requester := by
  have hread : ∃ verb payload, x.packet pr packetId part =
      plainHeader packetId x.requester x.source encryptedFlags verb ++ payload := by
    cases part with
    | chunk k => exact ⟨_, _, rfl⟩
    | credentials => exact ⟨_, _, rfl⟩
  obtain ⟨verb, payload, hpacket⟩ := hread
  have hheader := read_plainHeader packetId x.requester x.source encryptedFlags verb payload
  rw [← hpacket] at hheader
  have hflags : byteAt (x.packet pr packetId part) 18 = encryptedFlags := congrArg PacketHeader.flags hheader
  refine ⟨?_, congrArg PacketHeader.source hheader, congrArg PacketHeader.dest hheader⟩
  rw [Salsa.cipherSuite, Salsa.packetFlagsOffset, hflags]
  decide

theorem mem_parts {k : Nat} : .chunk k ∈ x.parts ↔ k < x.count := by
  simp [parts]

theorem nodup_parts : x.parts.Nodup := by
  refine List.nodup_append.mpr ⟨List.nodup_range.map fun a b h => AnswerPart.chunk.inj h, List.nodup_singleton _, ?_⟩
  intro part hpart other hother
  obtain ⟨k, -, rfl⟩ := List.mem_map.mp hpart
  rw [List.mem_singleton.mp hother]
  nofun

end Answer

/-! ### What a controller sends -/

section
variable {a a' : Node} {requester : ByteVec 5} {requestPacketId networkId : UInt64} {dictData : Bytes}
  {credentials : NetworkCredentialsPayload} {fromAddr : SocketAddr} {secret : Secret} {ours : SecretKey}

/-- The answer to a request. The update takes the next id. -/
def answerOf (a : Node) (ours : SecretKey) (requester : ByteVec 5) (requestPacketId networkId : UInt64) (dictData : Bytes)
    (credentials : NetworkCredentialsPayload) : Answer where
  source := a.address
  requester
  signingKey := ours.signing
  requestPacketId
  networkId
  configUpdateId := a.nextPacketId
  dictData
  credentials

/-- Each chunk is sealed in a packet of its own, and nothing is queued. -/
theorem responseChunks_sealed (x : Answer) (hkey : ours.signing = x.signingKey) (chunks : List Nat) (n : Node)
    (hours : n.identity.secret = some ours) (hsource : n.address = x.source) :
    ∃ n' packets, responseChunks pr x.requester x.requestPacketId x.networkId x.configUpdateId x.dictData secret chunks n =
        (n', some packets) ∧ n'.identity = n.identity ∧ n'.actions = n.actions ∧ (∀ a ∈ n.armored, a ∈ n'.armored) ∧
      List.Forall₂ (fun k data => x.SealedBy pr n' secret (.chunk k) data) chunks packets := by
  induction chunks generalizing n with
  | nil => exact ⟨n, [], rfl, rfl, rfl, fun _ ha => ha, .nil⟩
  | cons k rest ih =>
    obtain ⟨sealed, -, harmor, -⟩ := dearmor_encrypted pr secret n.nextPacketId x.requester x.source
      (Verb.ok.toByte ||| Constants.verbFlagCompressed) (pr.lz4Compress (chunkAnswer x.requestPacketId (x.chunk pr k)))
    have hpacket : verbPacket pr n.nextPacketId n.allocatePacketId.2.address x.requester .ok (chunkAnswer x.requestPacketId
        (chunkConfig pr ours.signing x.networkId x.configUpdateId x.dictData k)) true = x.packet pr n.nextPacketId (.chunk k) := by
      rw [show n.allocatePacketId.2.address = x.source from hsource, hkey]
      rfl
    replace harmor : Salsa.armorPacket pr secret (x.packet pr n.nextPacketId (.chunk k)) true = .ok sealed := harmor
    obtain ⟨n', packets, hrest, hidentity, hactions, hkept, hall⟩ := ih { n.allocatePacketId.2 with
      armored := n.allocatePacketId.2.armored ++ [⟨secret, x.packet pr n.nextPacketId (.chunk k)⟩] } hours hsource
    refine ⟨n', sealed :: packets, ?_, hidentity, hactions, fun a ha => hkept a (List.mem_append_left _ ha),
      .cons ⟨n.nextPacketId, hkept _ (List.mem_append_right _ List.mem_cons_self), harmor⟩ hall⟩
    rw [responseChunks, hours]
    simp only [show n.allocatePacketId.1 = n.nextPacketId from rfl, hpacket, harmor, hrest, Option.map_some]

/-- A request is answered with all the parts, to where it came from. -/
theorem respondConfig_sealed (h : respondConfig pr a requester requestPacketId networkId dictData credentials fromAddr = .ok a')
    (hsecret : a.sharedSecretForPeer pr requester = some secret) (hours : a.identity.secret = some ours) (hdict : dictData ≠ [])
    (hbound : dictData.length < 2 ^ 32) :
    credentials.serialize.length ≤ credentialsBufferSize ∧
    ∃ sent, a'.actions = a.actions ++ sent.map (NodeAction.sendTo · fromAddr) ∧
      List.Forall₂ ((answerOf a ours requester requestPacketId networkId dictData credentials).SealedBy pr a' secret)
        (answerOf a ours requester requestPacketId networkId dictData credentials).parts sent := by
  set x := answerOf a ours requester requestPacketId networkId dictData credentials
  obtain ⟨n, packets, hchunks, hidentity, hactions, hkept, hall⟩ :=
    @responseChunks_sealed pr secret ours x rfl (List.range x.count) a.allocatePacketId.2 hours rfl
  have hbuilt : buildNetworkConfigResponsePackets pr a requester requestPacketId networkId dictData secret
      = (n, some packets) := by
    unfold buildNetworkConfigResponsePackets
    rw [if_neg (Nat.not_le.mpr hbound)]
    exact hchunks
  have hpos : 0 < x.count := by
    refine (lt_chunkCount (by decide) 0).mpr ?_
    show 0 * networkConfigChunkBytes < dictData.length
    simpa using List.length_pos_iff.mpr hdict
  cases packets with
  | nil =>
    have hnone := hall.length_eq
    rw [List.length_range, List.length_nil] at hnone
    omega
  | cons packet packets =>
    obtain ⟨sealed, -, harmor, -⟩ := dearmor_encrypted pr secret n.nextPacketId requester a.address Verb.networkCredentials.toByte
      credentials.serialize
    have haddress : n.address = a.address := congrArg (·.address.bytes) hidentity
    unfold respondConfig at h
    rw [hsecret] at h
    simp only [hbuilt] at h
    obtain ⟨payload, hpayload, heq⟩ := bind_eq_ok h
    unfold credentialsPayload at hpayload
    split at hpayload
    · cases hpayload
    · rename_i hfits
      cases hpayload
      cases heq
      replace harmor : Salsa.armorPacket pr secret (x.packet pr n.nextPacketId .credentials) true = .ok sealed := harmor
      have hcredentials : encryptedVerbPacket n.nextPacketId n.address requester .networkCredentials credentials.serialize =
          x.packet pr n.nextPacketId .credentials := by
        rw [haddress]
        rfl
      have hafter : Node.sendEncrypted pr { n with actions := n.actions ++ (packet :: packets).map (NodeAction.sendTo · fromAddr) }
          requester .networkCredentials credentials.serialize secret fromAddr = { n with
            actions := n.actions ++ (packet :: packets).map (NodeAction.sendTo · fromAddr) ++ [.sendTo sealed fromAddr]
            nextPacketId := Node.succPacketId n.nextPacketId
            armored := n.armored ++ [⟨secret, x.packet pr n.nextPacketId .credentials⟩] } := by
        unfold Node.sendEncrypted Node.sendArmored
        simp only [Node.allocatePacketId]
        rw [show (Node.address { n with
          actions := n.actions ++ (packet :: packets).map (NodeAction.sendTo · fromAddr)
          nextPacketId := Node.succPacketId n.nextPacketId }) = n.address from rfl, hcredentials, harmor]
      refine ⟨Nat.not_lt.mp hfits, (packet :: packets) ++ [sealed], ?_, ?_⟩
      · rw [hafter]
        simp [hactions, Node.allocatePacketId]
      · rw [hafter]
        refine List.rel_append ?_ (.cons ⟨n.nextPacketId, List.mem_append_right _ List.mem_cons_self, harmor⟩ .nil)
        refine List.forall₂_map_left_iff.mpr (hall.imp fun k data hk => ?_)
        obtain ⟨packetId, hmem, hdata⟩ := hk
        exact ⟨packetId, List.mem_append_left _ hmem, hdata⟩

end

/-! ### What the member does with it -/

/-- Noting where a packet came from leaves the identity of a controller. -/
theorem controllerVerifyingKey_noteSource (n : Node) (source : ByteVec 5) (fromAddr : SocketAddr) (now networkId : UInt64) :
    (n.noteSource source fromAddr now).controllerVerifyingKey pr networkId = n.controllerVerifyingKey pr networkId := by
  have hbind : ∀ n : Node, n.controllerVerifyingKey pr networkId =
      ((n.topology.getPeer (controllerAddressFromNetworkId networkId)).map Peer.identity).bind fun identity =>
        if pr.ed25519Point identity.publicKey.signing then some identity.publicKey.signing else none := by
    intro n
    rw [Node.controllerVerifyingKey, Option.bind_map]
    rfl
  rw [hbind, hbind, Node.identity_noteSource]

/-- The membership as the configuration leaves it. -/
def configured (ours : ByteVec 5) (dictData : Bytes) (net : NetworkMembership) : NetworkMembership :=
  { net.applyDictionary ours dictData with pendingConfigRequest := false }

/-- A member that holds some chunks of an answer, and the secret to read the rest. The key is
the one by which it verifies certificates. -/
structure Expects (pr : Primitives) (x : Answer) (secret : Secret) (key : Option (ByteVec 32)) (held : Finset Nat)
    (net : NetworkMembership) (n : Node) : Prop where
  address : n.address = x.requester
  secret : n.sharedSecretForPeer pr x.source = some secret
  key : n.controllerVerifyingKey pr x.networkId = key
  joined : n.findNetwork x.networkId = some net
  pending : ConfigsHold x.dictData networkConfigChunkBytes x.networkId x.configUpdateId held n.pendingNetworkConfigs

/-- A chunk of the answer, to the collector of the member. -/
theorem Expects.applyReceived {x : Answer} {secret : Secret} {key : Option (ByteVec 32)} {held : Finset Nat}
    {net : NetworkMembership} {n : Node} (h : Expects pr x secret key held net n)
    (hbound : x.dictData.length ≤ maxNetworkConfigSize) {k : Nat} (hk : k < x.count) (hempty : n.actions = []) :
    let c := Collector.step (Finset.range x.count) held {k}
    (n.applyReceivedNetworkConfig (x.chunk pr k)).actions =
        (if c.2 then [.networkConfigured x.networkId x.dictData] else []) ∧
      Expects pr x secret key c.1 (if c.2 then configured x.requester x.dictData net else net)
        { n.applyReceivedNetworkConfig (x.chunk pr k) with actions := [] } := by
  intro c
  have hi : k * networkConfigChunkBytes < x.dictData.length := (lt_chunkCount (by decide) k).mp hk
  obtain ⟨hchunk, htotal, hindex⟩ := @chunkOf_chunkConfig pr x.signingKey x.networkId x.configUpdateId x.dictData hbound k hi
  obtain ⟨hholds, hout⟩ := assembleNetworkConfig_step h.pending (by decide) hbound hi rfl rfl hchunk htotal hindex
  have hjoined : (n.findNetwork (x.chunk pr k).networkId).isNone = false := by
    rw [show (x.chunk pr k).networkId = x.networkId from rfl, h.joined]
    rfl
  replace hout : (assembleNetworkConfig n.pendingNetworkConfigs (x.chunk pr k)).2 =
      if c.2 then some { x.chunk pr k with dictData := x.dictData, chunkIndex := some 0, signature := none } else none := hout
  unfold Node.applyReceivedNetworkConfig
  by_cases hdone : c.2 = true
  · rw [if_pos hdone] at hout
    simp only [hjoined, Bool.false_eq_true, if_false, hout, hdone, if_true]
    refine ⟨by rw [Node.pushAction, Node.applyNetworkConfig]; simp [Node.modifyNetwork, hempty, Answer.chunk, chunkConfig],
      h.address, h.secret, h.key, ?_, hholds⟩
    have happlied := Controller.findNetwork_applyNetworkConfig (n := { n with
      pendingNetworkConfigs := (assembleNetworkConfig n.pendingNetworkConfigs (x.chunk pr k)).1 }) h.joined x.dictData
    have hconfigured := Node.findNetwork_modifyNetwork happlied
      (f := fun net => { net with pendingConfigRequest := false }) fun _ => rfl
    rw [configured, ← h.address]
    exact hconfigured
  · rw [if_neg hdone] at hout
    simp only [hjoined, Bool.false_eq_true, if_false, hout, hdone]
    exact ⟨hempty, h.address, h.secret, h.key, h.joined, hholds⟩

/-- A configuration that is taken up is applied. -/
theorem handleOk_taken {recv : Receiver} {d : Dispatch} {nc : NetworkConfigPayload} (hok : Verb.fromByte d.verbId = some .ok)
    (h : Node.configTaken d = some nc) (fromAddr : SocketAddr) (now : UInt64) :
    Node.handleOk pr recv d fromAddr now = .ok ⟨d.node.applyReceivedNetworkConfig nc, []⟩ := by
  unfold Node.configTaken at h
  rw [hok] at h
  unfold Node.handleOk
  cases hread : OkPayload.deserialize (d.packet.drop Constants.minPacketLength) with
  | error e =>
    simp only [hread] at h
    cases h
  | ok ok =>
    simp only [hread] at h ⊢
    -- Only what comes back for a request is a configuration.
    have hconfig := h
    unfold Node.okConfig at hconfig
    split at hconfig
    · rename_i data hsub
      split at hconfig
      · rename_i hverb
        have hother : ok.inReVerb ≠ .multicastGather := by
          rw [hverb]
          decide
        simp only [hsub, Node.handleOkGeneric, if_neg hother, h]
      · cases hconfig
    · cases hconfig

section
variable {sender : Node} {x : Answer} {secret : Secret} {key : Option (ByteVec 32)} {held : Finset Nat} {net : NetworkMembership}
  {n : Node} {data : Bytes} (hsource : byteAt x.source.toBytes 0 ≠ 0xff)
include hsource

/-- A part that arrives is opened and gets to a handler. -/
theorem Expects.admitted (h : Expects pr x secret key held net n) {part : AnswerPart}
    (hsealed : x.SealedBy pr sender secret part data)
    (hreads : ∀ packetId, ((⟨secret, x.packet pr packetId part⟩ : Armored).handled pr).isSome = true)
    (fromAddr : SocketAddr) (now : UInt64) :
    ∃ d packetId, n.admitPacket pr data fromAddr now = .dispatch d ∧ (n.dearmor pr data).isSome = true ∧
      (⟨secret, x.packet pr packetId part⟩ : Armored).handled pr = some (d.packet.drop 27) ∧
      d.verbId = byteAt (x.packet pr packetId part) 27 &&& 0x1f ∧
      Expects pr x secret key held net d.node ∧ d.node.actions = [] := by
  obtain ⟨packetId, -, harmor⟩ := hsealed
  obtain ⟨hsuite, hfrom, hdest⟩ := x.read_packet pr packetId part
  set a : Armored := ⟨secret, x.packet pr packetId part⟩
  replace hfrom : a.source = x.source := hfrom
  have hseals : a.Seals pr data := ⟨true, hsuite, harmor⟩
  obtain ⟨said, hsaid⟩ := Option.isSome_iff_exists.mp (hreads packetId)
  obtain ⟨d, hd, rfl, hverb, -, hnode, hopened⟩ := hseals.admitted hsuite (by rw [hfrom]; exact hsource) (n := n)
    (hdest.trans h.address.symm) (by rw [hfrom]; exact h.secret) hsaid fromAddr now
  refine ⟨d, packetId, hd, hopened, hsaid, Armored.verbId_handled hsaid hverb, ?_, by rw [hnode]; rfl⟩
  rw [hnode]
  exact ⟨h.address, by rw [Node.sharedSecretForPeer_noteSource]; exact h.secret,
    by rw [controllerVerifyingKey_noteSource]; exact h.key, h.joined, h.pending⟩

omit hsource in
/-- The packet that brings a part is what the sender sealed. -/
theorem Expects.unforged (h : Expects pr x secret key held net n) {part : AnswerPart}
    (hsealed : x.SealedBy pr sender secret part data) {ι : Type} {nodes : ι → Node} {i : ι} (hi : nodes i = sender) {c : Call}
    (hbefore : c.before = n) (hdata : c.data = data) : Unforged pr nodes c := by
  intro opened _
  subst hi hbefore hdata
  obtain ⟨packetId, hmem, harmor⟩ := hsealed
  obtain ⟨hsuite, hfrom, -⟩ := x.read_packet pr packetId part
  have hseals : (⟨secret, x.packet pr packetId part⟩ : Armored).Seals pr c.data := ⟨true, hsuite, harmor⟩
  have hsource : (PacketHeader.read c.data).source = x.source := (hseals.fieldAt (.refl _) 5 13 (by decide)).trans hfrom
  exact ⟨i, _, hmem, c.data, hseals, .refl _, by rw [hsource]; exact h.secret⟩

/-- A chunk that arrives is one step of the collector: the last one missing completes the
configuration, which is applied and announced. -/
theorem Expects.receive_chunk (hlz4 : Lz4RoundTrips pr) (h : Expects pr x secret key held net n)
    (hbound : x.dictData.length ≤ maxNetworkConfigSize) {k : Nat} (hk : k < x.count)
    (hsealed : x.SealedBy pr sender secret (.chunk k) data) (fromAddr : SocketAddr) (now : UInt64) :
    let c := Collector.step (Finset.range x.count) held {k}
    ∃ r, n.receivePacket pr data fromAddr now = .ok r ∧
      r.actions = (if c.2 then [.networkConfigured x.networkId x.dictData] else []) ∧
      Expects pr x secret key c.1 (if c.2 then configured x.requester x.dictData net else net) r.node := by
  intro c
  obtain ⟨d, packetId, hd, -, hhandled, hverb, hexpects, hempty⟩ := h.admitted hsource hsealed
    (fun packetId => Option.isSome_of_mem (handled_chunk hlz4 (a := ⟨secret, x.packet pr packetId (.chunk k)⟩) rfl)) fromAddr now
  have hok : Verb.fromByte d.verbId = some .ok := by
    rw [verbId_chunk (a := ⟨secret, x.packet pr packetId (.chunk k)⟩) rfl hverb, Verb.fromByte_toByte]
  have htaken : Node.configTaken d = some (x.chunk pr k) :=
    configTaken_chunk hlz4 (a := ⟨secret, x.packet pr packetId (.chunk k)⟩) rfl hhandled hverb
  have hbody : Node.receiveBody pr (Node.receiveFuel pr (n.heldBytes + data.length)) n data fromAddr now =
      .ok ⟨d.node.applyReceivedNetworkConfig (x.chunk pr k), []⟩ := by
    unfold Node.receiveBody Node.dispatch
    rw [hd]
    simp only [hok]
    exact handleOk_taken hok htaken fromAddr now
  obtain ⟨r, hr, hafter, hactions⟩ := Node.receiveWith_of_body hbody
  refine ⟨r, hr, ?_⟩
  rw [hactions, hafter]
  exact hexpects.applyReceived hbound hk hempty

/-- The credentials that arrive replace the certificate of the member. -/
theorem Expects.receive_credentials (h : Expects pr x secret key held net n) (hwell : x.credentials.WellFormed)
    {com : CertificateOfMembership} (hcom : x.credentials.com = some com) (hnames : com.qualifier 1 = some x.networkId)
    (hsealed : x.SealedBy pr sender secret .credentials data) (fromAddr : SocketAddr) (now : UInt64) :
    ∃ r, n.receivePacket pr data fromAddr now = .ok r ∧ r.actions = [] ∧
      Expects pr x secret key held (Node.installCom com net) r.node := by
  obtain ⟨d, packetId, hd, -, hhandled, hverb, hexpects, hempty⟩ := h.admitted hsource hsealed
    (fun packetId => Option.isSome_of_mem
      (handled_encryptedVerbPacket (a := ⟨secret, x.packet pr packetId .credentials⟩) rfl)) fromAddr now
  obtain ⟨hcredentials, hpayload⟩ :=
    read_encryptedVerbPacket (a := ⟨secret, x.packet pr packetId .credentials⟩) rfl hhandled hverb
  have hread : Node.credentialsCom d.packet = some (x.networkId, com) := by
    rw [Node.credentialsCom, hpayload, NetworkCredentialsPayload.deserialize_serialize x.credentials hwell]
    simp only [hcom, Option.bind_some, hnames, Option.map_some]
  have hbody : Node.receiveBody pr (Node.receiveFuel pr (n.heldBytes + data.length)) n data fromAddr now =
      .ok ⟨d.node.modifyNetwork x.networkId (Node.installCom com), []⟩ := by
    unfold Node.receiveBody Node.dispatch
    rw [hd]
    simp only [hcredentials, Node.handleVerb, Node.handleNetworkCredentials, hread]
    rfl
  obtain ⟨r, hr, hafter, hactions⟩ := Node.receiveWith_of_body hbody
  refine ⟨r, hr, hactions.trans hempty, ?_⟩
  rw [hafter]
  exact ⟨hexpects.address, hexpects.secret, hexpects.key, Node.findNetwork_modifyNetwork hexpects.joined fun _ => rfl,
    hexpects.pending⟩

/-! ### One after another -/

/-- The parts that are still to come to a member that holds some chunks. -/
structure Remaining (x : Answer) (held : Finset Nat) (ps : List AnswerPart) : Prop where
  nodup : ps.Nodup
  chunk : ∀ k, .chunk k ∈ ps ↔ k < x.count ∧ k ∉ held

omit hsource in
theorem Remaining.tail {part : AnswerPart} {ps : List AnswerPart} {held' : Finset Nat} (h : Remaining x held (part :: ps))
    (hheld : ∀ k, k ∈ held' ↔ k ∈ held ∨ part = .chunk k) : Remaining x held' ps := by
  obtain ⟨hnot, hnodup⟩ := List.nodup_cons.mp h.nodup
  refine ⟨hnodup, fun k => ?_⟩
  rw [hheld]
  constructor
  · intro hk
    obtain ⟨hlt, hfree⟩ := (h.chunk k).mp (List.mem_cons_of_mem _ hk)
    exact ⟨hlt, fun hor => hor.elim hfree fun heq => hnot (heq ▸ hk)⟩
  · rintro ⟨hlt, hnor⟩
    obtain ⟨hfree, hne⟩ := not_or.mp hnor
    exact (List.mem_cons.mp ((h.chunk k).mpr ⟨hlt, hfree⟩)).resolve_left fun heq => hne heq.symm

variable (hlz4 : Lz4RoundTrips pr) (hbound : x.dictData.length ≤ maxNetworkConfigSize) (hwell : x.credentials.WellFormed)
  {com : CertificateOfMembership} (hcom : x.credentials.com = some com) (hnames : com.qualifier 1 = some x.networkId)
include hwell hcom hnames

/-- After the chunks at most the credentials are left. -/
theorem Expects.receive_rest {ps : List AnswerPart} {arrivals : List Arrival}
    (hall : List.Forall₂ (fun a part => x.SealedBy pr sender secret part a.data) arrivals ps) (hnodup : ps.Nodup)
    (hnone : ∀ k, .chunk k ∉ ps) (h : Expects pr x secret key held net n) :
    ∃ n', n.receiveAll pr arrivals = .ok (n', []) ∧
      Expects pr x secret key held (if .credentials ∈ ps then Node.installCom com net else net) n' := by
  cases hall with
  | nil => exact ⟨n, rfl, h⟩
  | @cons a part arrivals ps hsealed hrest =>
    cases part with
    | chunk k => exact absurd List.mem_cons_self (hnone k)
    | credentials =>
      obtain ⟨r, hr, hactions, hafter⟩ := h.receive_credentials hsource hwell hcom hnames hsealed a.fromAddr a.now
      have hempty : ps = [] := by
        refine List.eq_nil_iff_forall_not_mem.mpr fun part hpart => ?_
        cases part with
        | chunk k => exact hnone k (List.mem_cons_of_mem _ hpart)
        | credentials => exact (List.nodup_cons.mp hnodup).1 hpart
      subst hempty
      cases hrest
      refine ⟨r.node, ?_, by rw [if_pos List.mem_cons_self]; exact hafter⟩
      rw [Node.receiveAll, hr, ok_bind, hactions]
      rfl

include hlz4 hbound

/-- Parts in any order: the configuration is announced once, and the membership is
configured and has the certificate, whichever came first. -/
theorem Expects.receive_parts {ps : List AnswerPart} {arrivals : List Arrival}
    (hall : List.Forall₂ (fun a part => x.SealedBy pr sender secret part a.data) arrivals ps) (hleft : Remaining x held ps)
    {k : Nat} (hk : .chunk k ∈ ps) (h : Expects pr x secret key held net n) :
    ∃ n' net', n.receiveAll pr arrivals = .ok (n', [.networkConfigured x.networkId x.dictData]) ∧
      Expects pr x secret key ∅ net' n' ∧
      (.credentials ∉ ps → net' = configured x.requester x.dictData net) ∧
      (.credentials ∈ ps → net' = configured x.requester x.dictData (Node.installCom com net) ∨
        net' = Node.installCom com (configured x.requester x.dictData net)) := by
  induction hall generalizing held net n k with
  | nil => cases hk
  | @cons a part arrivals ps hsealed hrest ih =>
    cases part with
    | credentials =>
      obtain ⟨r, hr, hactions, hafter⟩ := h.receive_credentials hsource hwell hcom hnames hsealed a.fromAddr a.now
      have htail : Remaining x held ps := hleft.tail fun k => by simp
      have hrest' : .chunk k ∈ ps := (List.mem_cons.mp hk).resolve_left nofun
      obtain ⟨n', net', hall', hexpects, hwithout, -⟩ := ih htail hrest' hafter
      refine ⟨n', net', ?_, hexpects, fun hnot => absurd List.mem_cons_self hnot,
        fun _ => .inl (hwithout (List.nodup_cons.mp hleft.nodup).1)⟩
      rw [Node.receiveAll, hr, ok_bind, hall', ok_bind, hactions]
      rfl
    | chunk j =>
      obtain ⟨hj, hfree⟩ := (hleft.chunk j).mp List.mem_cons_self
      obtain ⟨r, hr, hactions, hafter⟩ := h.receive_chunk hsource hlz4 hbound hj hsealed a.fromAddr a.now
      have htail : Remaining x (held ∪ {j}) ps := hleft.tail fun k => by
        rw [Finset.mem_union, Finset.mem_singleton, AnswerPart.chunk.injEq, eq_comm (a := k)]
      have hsame : AnswerPart.credentials ∈ AnswerPart.chunk j :: ps ↔ .credentials ∈ ps := by simp
      rw [hsame]
      by_cases hwhole : Finset.range x.count ⊆ held ∪ {j}
      · -- The last one missing: what is left is at most the credentials.
        rw [Collector.step, if_pos hwhole] at hactions hafter
        have hnone : ∀ k, .chunk k ∉ ps := fun k hin =>
          ((htail.chunk k).mp hin).2 (hwhole (Finset.mem_range.mpr ((htail.chunk k).mp hin).1))
        obtain ⟨n', hall', hexpects⟩ := hafter.receive_rest hsource hwell hcom hnames hrest htail.nodup hnone
        refine ⟨n', _, ?_, hexpects, fun hnot => if_neg hnot, fun hin => .inr (if_pos hin)⟩
        rw [Node.receiveAll, hr, ok_bind, hall', ok_bind, hactions]
        rfl
      · rw [Collector.step, if_neg hwhole] at hactions hafter
        obtain ⟨i, hi, hmissing⟩ := Finset.not_subset.mp hwhole
        obtain ⟨n', net', hall', hexpects, hends⟩ := ih htail ((htail.chunk i).mpr ⟨Finset.mem_range.mp hi, hmissing⟩) hafter
        refine ⟨n', net', ?_, hexpects, hends⟩
        rw [Node.receiveAll, hr, ok_bind, hall', ok_bind, hactions]
        rfl

end

/-! ### A member that joins -/

section
open Controller

variable {σ : Type} {c : Engine σ}

/-- What is issued beside a configuration is the credentials of the member. -/
theorem issued_credentials {networkId now : UInt64} {requester : ByteVec 5} {records records' : σ}
    {response : ConfigResponse}
    (h : (c.handleConfigRequest pr networkId requester now).run records = (.ok response, records')) :
    ∃ network m, response.credentials = c.credentials pr networkId requester network m now := by
  obtain ⟨network, s₁, -, h⟩ := Attempt.run_bind_eq_ok h
  obtain ⟨m₁, s₂, -, h⟩ := Attempt.run_bind_eq_ok h
  obtain ⟨m₂, s₃, -, h⟩ := Attempt.run_bind_eq_ok h
  obtain ⟨m₃, s₄, -, h⟩ := Attempt.run_bind_eq_ok h
  obtain ⟨m₄, s₅, -, h⟩ := Attempt.run_bind_eq_ok h
  exact ⟨network, m₄, Engine.issueConfig_credentials h⟩

/-- Credentials that fit in their buffer are well formed. -/
theorem wellFormed_credentials {networkId now : UInt64} {requester : ByteVec 5} {network : NetworkRecord} {m : MemberRecord}
    (hfits : (c.credentials pr networkId requester network m now).serialize.length ≤ credentialsBufferSize) :
    (c.credentials pr networkId requester network m now).WellFormed := by
  set credentials := c.credentials pr networkId requester network m now
  have hlength : credentials.serialize.length = 185 + grantLength network m :=
    c.length_credentials pr networkId requester network m now
  have hcaps : credentials.capabilitiesRaw.length = _ := c.length_capabilitiesRaw pr networkId requester network m now
  have htags : credentials.tagsRaw.length = _ := c.length_tagsRaw pr networkId requester m now
  unfold grantLength at hlength
  unfold credentialsBufferSize at hfits
  refine ⟨fun com hcom => ?_, ?_, ?_, Nat.zero_le _, Nat.zero_le _⟩
  · obtain rfl := Option.some.inj hcom
    exact wellFormed_buildSignedCom pr c.signingKey c.address networkId now _
  · rw [hcaps, maxPrefixed]
    omega
  · rw [htags, maxPrefixed]
    omega

/-- What a controller returns it issued from its records. -/
theorem issued_of_served {view : σ → Store} (hf : Faithful c.storage view) {networkId now : UInt64} {requester : ByteVec 5}
    {s s' : σ} {response : ConfigResponse}
    (h : (c.handleConfigRequest pr networkId requester now).run s = (.ok response, s')) :
    ∃ network m members, (view s).Serves networkId requester now network m ∧ view s' = (view s).setMember m ∧
      (view s').Lists networkId members ∧
      c.issued pr networkId requester network m now ((view s).routes networkId) members = .ok response := by
  cases hnetwork : (view s).network networkId with
  | none =>
    rw [Engine.handleConfigRequest_unknown hf pr requester now hnetwork] at h
    cases h
  | some network =>
    by_cases hadmitted : network.isPrivate = true → ((view s).requester networkId requester now).authorized = true
    · obtain ⟨m, s₁, members, hserves, hview, hlists, hrun⟩ := Engine.handleConfigRequest_served hf pr hnetwork hadmitted
      rw [hrun] at h
      obtain ⟨hissued, rfl⟩ := Prod.mk.inj h
      exact ⟨network, m, members, hserves, hview, hlists, hissued⟩
    · obtain ⟨hprivate, hauth⟩ := Classical.not_imp.mp hadmitted
      obtain ⟨s₁, hrefused, -⟩ := Engine.handleConfigRequest_refused hf pr hnetwork hprivate (by simpa using hauth)
      rw [hrefused] at h
      cases h

/-- A configuration holds the certificate of the member. -/
theorem ourCom_issued {networkId now : UInt64} {requester : ByteVec 5} {network : NetworkRecord} {m : MemberRecord}
    {routes : List ManagedRoute} {members : List MemberRecord} {response : ConfigResponse}
    (h : c.issued pr networkId requester network m now routes members = .ok response) :
    ∃ dict, Dictionary.deserialize response.config.dictData = .ok dict ∧ dict.ourCom =
      some (buildSignedCom pr c.signingKey c.address.bytes networkId (ztAddressToU64 requester) now) := by
  obtain ⟨base, hbase, hdata⟩ := issued_eq_ok h
  obtain ⟨entries, directory, hentries, -, hdict⟩ := issued_config pr c.signingKey c.address hbase hdata
  have hplain := plainKeys_addBinary (plainKeys_config hentries) directory
  refine ⟨_, by rw [hdict]; exact Dictionary.deserialize_serialize _ hplain, ?_⟩
  have hcom := CertificateOfMembership.deserialize_serialize _
    (wellFormed_buildSignedCom pr c.signingKey c.address networkId now (ztAddressToU64 requester)) []
  rw [List.append_nil] at hcom
  rw [Dictionary.ourCom, getBinary_com hentries directory, Option.bind_some, hcom]
  rfl

theorem issued_ne_nil {networkId now : UInt64} {requester : ByteVec 5} {network : NetworkRecord} {m : MemberRecord}
    {routes : List ManagedRoute} {members : List MemberRecord} {response : ConfigResponse}
    (h : c.issued pr networkId requester network m now routes members = .ok response) : response.config.dictData ≠ [] := by
  obtain ⟨dict, hread, hcom⟩ := ourCom_issued h
  intro hempty
  rw [hempty] at hread
  obtain rfl := Except.ok.inj hread
  cases hcom

/-- A membership is the same whether the certificate comes before a configuration that
holds it or after. -/
theorem configured_installCom {ours : ByteVec 5} {dictData : Bytes} {dict : Dictionary} {com : CertificateOfMembership}
    (hread : Dictionary.deserialize dictData = .ok dict) (hcom : dict.ourCom = some com) (net : NetworkMembership) :
    configured ours dictData (Node.installCom com net) = Node.installCom com (net.applyDictionary ours dictData) := by
  rw [configured, NetworkMembership.applyDictionary_eq_update _ _ hread, NetworkMembership.applyDictionary_eq_update _ _ hread]
  simp [Node.installCom, NetworkMembership.update, Dictionary.content, hcom]

theorem ourCom_applyDictionary {ours : ByteVec 5} {dictData : Bytes} {dict : Dictionary} {com : CertificateOfMembership}
    (hread : Dictionary.deserialize dictData = .ok dict) (hcom : dict.ourCom = some com) (net : NetworkMembership) :
    (net.applyDictionary ours dictData).ourCom = some com := by
  rw [NetworkMembership.applyDictionary_eq_update _ _ hread]
  simp [NetworkMembership.update, Dictionary.content, hcom]

/-- Whom a node follows is up to its certificate, those filed, and the members listed. -/
theorem follows_of_membership {n n' : Node} {networkId : UInt64} {st : Store} {net net' : NetworkMembership}
    (h : Follows pr n networkId st) (hnet : n.findNetwork networkId = some net) (hnet' : n'.findNetwork networkId = some net')
    (haddress : n'.address = n.address) (hkey : n'.controllerVerifyingKey pr networkId = n.controllerVerifyingKey pr networkId)
    (hours : net'.ourCom = net.ourCom) (hcoms : net'.peerComs = net.peerComs) (hmembers : net'.members = net.members) :
    Follows pr n' networkId st := by
  refine ⟨fun other => ?_, net', hnet', ?_⟩
  · have hsame : Vl2.hasPeerCom pr n' networkId other = Vl2.hasPeerCom pr n networkId other := by
      simp only [Vl2.hasPeerCom, hnet, hnet', hkey, Vl2.storedCom, hcoms, NetworkMembership.verifyPeerCom, hours]
    rw [hsame, haddress]
    exact h.trusted other
  · obtain ⟨net₀, hnet₀, hlisted⟩ := h.listed
    obtain rfl := Option.some.inj (hnet₀.symm.trans hnet)
    rw [hmembers]
    exact hlisted

/-- **Joining**: in whatever order the datagrams of a controller's answer arrive, the member
announces the configuration once, ends with it and with the certificate signed for it, and
trusts exactly the other members that the controller has on record as authorised and with
an address. -/
theorem join_completes {view : σ → Store} (hf : Faithful c.storage view) (hverify : Signing.VerifiesOwn pr)
    (hpoint : ∀ key, pr.ed25519Point (pr.ed25519Public key) = true) (hlz4 : Lz4RoundTrips pr) {s s' : σ} {a a' b : Node}
    {networkId now requestPacketId : UInt64} {response : ConfigResponse}
    (hserved : (c.handleConfigRequest pr networkId b.address now).run s = (.ok response, s'))
    (hvalid : (view s).ValidAssignments networkId) (hcount : (view s').AtMost networkId 65535)
    (hbound : response.config.dictData.length ≤ maxNetworkConfigSize) {ours : SecretKey} (hours : a.identity.secret = some ours)
    {secret : Secret} (htheirs : a.sharedSecretForPeer pr b.address = some secret)
    {fromAddr : SocketAddr} (hresponds : respondConfig pr a b.address requestPacketId networkId response.config.dictData
      response.credentials fromAddr = .ok a')
    {sent : List Bytes} (hsent : a'.actions = a.actions ++ sent.map (NodeAction.sendTo · fromAddr))
    (hknows : KnowsController pr b networkId c.address c.signingKey) (hsecret : b.sharedSecretForPeer pr a.address = some secret)
    (hsource : byteAt a.address.toBytes 0 ≠ 0xff) {net : NetworkMembership} (hjoined : b.findNetwork networkId = some net)
    (hpending : PendingConfigsOk b.pendingNetworkConfigs)
    (hfresh : ∀ p ∈ b.pendingNetworkConfigs, p.networkId = networkId → p.configUpdateId ≠ a.nextPacketId)
    {arrivals : List Arrival} (hperm : (arrivals.map Arrival.data).Perm sent) :
    ∃ b', b.receiveAll pr arrivals = .ok (b', [.networkConfigured networkId response.config.dictData]) ∧
      b'.address = b.address ∧ b'.findNetwork networkId = some (Node.installCom
        (buildSignedCom pr c.signingKey c.address.bytes networkId (ztAddressToU64 b.address) now)
        (net.applyDictionary b.address response.config.dictData)) ∧
      Follows pr b' networkId (view s') := by
  set com := buildSignedCom pr c.signingKey c.address.bytes networkId (ztAddressToU64 b.address) now
  obtain ⟨network, m, members, hserves, hview, hlists, hissued⟩ := issued_of_served hf hserved
  have hvalid' := hserves.validAssignments hvalid
  rw [← hview] at hvalid'
  obtain ⟨dict, hread, hcom⟩ := ourCom_issued hissued
  obtain ⟨network', m', hcredentials⟩ := issued_credentials hserved
  have hdict := issued_ne_nil hissued
  obtain ⟨hfits, sent', hsent', hsealed⟩ := respondConfig_sealed hresponds htheirs hours hdict
    (hbound.trans_lt (by decide))
  obtain rfl : sent' = sent := by
    have hsame := List.append_cancel_left (hsent'.symm.trans hsent)
    exact List.map_injective_iff.mpr (fun x y h => (NodeAction.sendTo.inj h).1) hsame
  set x := answerOf a ours b.address requestPacketId networkId response.config.dictData response.credentials
  have hwell : x.credentials.WellFormed := by
    show response.credentials.WellFormed
    rw [hcredentials] at hfits ⊢
    exact wellFormed_credentials hfits
  have hcomOf : x.credentials.com = some com := by
    show response.credentials.com = some com
    rw [hcredentials]
    rfl
  have hexpects : Expects pr x secret (b.controllerVerifyingKey pr networkId) ∅ net b :=
    ⟨rfl, hsecret, rfl, hjoined, hpending, fun p hp hnet hupd => absurd hupd (hfresh p hp hnet), fun _ => rfl⟩
  -- The datagrams in the order of arrival are parts in some order.
  obtain ⟨ps, hall, hps⟩ := List.perm_comp_forall₂ hperm hsealed.flip
  have hpos : 0 < x.count := by
    refine (lt_chunkCount (by decide) 0).mpr ?_
    show 0 * networkConfigChunkBytes < response.config.dictData.length
    simpa using List.length_pos_iff.mpr hdict
  have hleft : Remaining x ∅ ps :=
    ⟨hps.nodup_iff.mpr x.nodup_parts, fun k => by rw [hps.mem_iff, x.mem_parts]; simp⟩
  obtain ⟨b', net', hreceived, hafter, -, hends⟩ := hexpects.receive_parts hsource hlz4 hbound hwell hcomOf rfl
    (List.forall₂_map_left_iff.mp hall) hleft ((hleft.chunk 0).mpr ⟨hpos, Finset.notMem_empty 0⟩)
  have hfinal : net' = Node.installCom com (net.applyDictionary b.address response.config.dictData) := by
    rcases hends (hps.mem_iff.mpr (by simp [Answer.parts])) with rfl | rfl
    · exact configured_installCom hread hcom net
    · rfl
  subst hfinal
  obtain ⟨base, hbase, hdata⟩ := issued_eq_ok hissued
  have hsmall : members.length ≤ 65535 := by
    rw [← List.length_map MemberRecord.nodeId]
    refine hcount _ hlists.nodup fun node hin => ?_
    obtain ⟨m', hm', rfl⟩ := List.mem_map.mp hin
    rw [(hlists.mem m').mp hm']
    rfl
  have hfollows := follows_of_config hverify hpoint hlists hvalid' hsmall hbase hdata hknows hjoined
  exact ⟨b', hreceived, hafter.address, hafter.joined,
    follows_of_membership hfollows (findNetwork_applyNetworkConfig hjoined _) hafter.joined
    hafter.address hafter.key (ourCom_applyDictionary hread hcom net).symm rfl rfl⟩

end

open Controller Controller.SampleMembers in
/-- The credentials arrive before the configuration, and the member trusts the other one. -/
theorem join_completes_two : ∃ (response : ConfigResponse) (s' : InMemoryStorage) (a' b' : Node) (sent : List Bytes),
    (engine.handleConfigRequest Sample.primitives networkId (address 2) 1000).run twoMembers = (.ok response, s') ∧
      respondConfig Sample.primitives Sample.start (address 2) 7 networkId response.config.dictData response.credentials
        (Sample.endpoint 20) = .ok a' ∧
      a'.actions = sent.map (NodeAction.sendTo · (Sample.endpoint 20)) ∧ sent.length = 2 ∧
      guest.receiveAll Sample.primitives (sent.reverse.map fun data => ⟨data, Sample.endpoint 10, 2000⟩) =
        .ok (b', [.networkConfigured networkId response.config.dictData]) ∧
      Vl2.hasPeerCom Sample.primitives b' networkId (address 4) = true := by
  have hcheck : okWith ((engine.handleConfigRequest Sample.primitives networkId (address 2) 1000).run twoMembers).1
      (fun response => decide (response.config.dictData.length ≤ maxNetworkConfigSize) &&
        okWith (respondConfig Sample.primitives Sample.start (address 2) 7 networkId response.config.dictData
          response.credentials (Sample.endpoint 20)) (fun a' => a'.actions.length = 2)) = true := by
    decide +kernel
  obtain ⟨response, hok, hcheck⟩ := exists_of_okWith hcheck
  obtain ⟨hbound, hresponds⟩ := Bool.and_eq_true_iff.mp hcheck
  obtain ⟨a', hresponds, hcount⟩ := exists_of_okWith hresponds
  obtain ⟨s', hserved⟩ : ∃ s', (engine.handleConfigRequest Sample.primitives networkId (address 2) 1000).run twoMembers =
      (.ok response, s') := by
    rcases hrun : (engine.handleConfigRequest Sample.primitives networkId (address 2) 1000).run twoMembers with ⟨reply, s'⟩
    rw [hrun] at hok
    exact ⟨s', congrArg (·, s') hok⟩
  obtain ⟨record, m, members, hserves, hview, -, hissued⟩ := issued_of_served InMemoryStorage.memory_faithful hserved
  have hnode : m.nodeId = address 2 := by
    obtain ⟨ips, rfl, -⟩ := hserves.record
    exact ((InMemoryStorage.memory_faithful.keyed twoMembers).requester networkId (address 2) 1000).2
  -- Only the record of the member that asked is new.
  have hsame : ∀ other, other ≠ address 2 → s'.view.member networkId other = twoMembers.view.member networkId other := by
    intro other hother
    rw [hview, Store.member_setMember_of_ne _ m]
    exact fun h => hother (h.2.trans hnode)
  have hfew : s'.view.AtMost networkId 65535 := by
    intro nodes hnodup hnodes
    have hsub : nodes ⊆ [address 2, address 4] := by
      intro node hin
      by_cases hrequester : node = address 2
      · rw [hrequester]
        exact List.mem_cons_self
      · obtain ⟨m', hm'⟩ := Option.isSome_iff_exists.mp (hnodes node hin)
        rw [hsame node hrequester] at hm'
        obtain ⟨hmem, rfl⟩ := mem_twoMembers hm'
        rcases List.mem_pair.mp hmem with rfl | rfl
        · exact absurd rfl hrequester
        · exact List.mem_cons_of_mem _ List.mem_cons_self
    have hle := (hnodup.subperm hsub).length_le
    simp at hle
    omega
  have hsecret : Sample.start.sharedSecretForPeer Sample.primitives (address 2) =
      some (KeyAgreement.keyAgree Sample.primitives (Sample.key 1) (Sample.key 2)) := by decide
  replace hbound := of_decide_eq_true hbound
  obtain ⟨-, sent, hsent, -⟩ := respondConfig_sealed hresponds hsecret rfl (issued_ne_nil hissued)
    (hbound.trans_lt (by decide))
  rw [show Sample.start.actions = [] from rfl, List.nil_append] at hsent
  have htwo : sent.length = 2 := by
    rw [hsent, List.length_map] at hcount
    exact of_decide_eq_true hcount
  have hperm : ((sent.reverse.map fun data => (⟨data, Sample.endpoint 10, 2000⟩ : Arrival)).map Arrival.data).Perm sent := by
    rw [List.map_map, show (Arrival.data ∘ fun data => ⟨data, Sample.endpoint 10, 2000⟩) = id from rfl, List.map_id]
    exact sent.reverse_perm
  have haddress : guest.address = address 2 := rfl
  rw [← haddress] at hserved hresponds hsecret hsame ⊢
  obtain ⟨b', hreceived, hsame', -, hfollows⟩ := join_completes (b := guest) InMemoryStorage.memory_faithful Sample.verifiesOwn
    (fun _ => rfl) lz4RoundTrips_sample hserved twoMembers_validAssignments hfew hbound rfl hsecret hresponds hsent guest_knows
    (show guest.sharedSecretForPeer Sample.primitives (address 1) = _ by decide) (by decide) rfl
    ⟨List.nodup_nil, fun p hp => by cases hp⟩
    (fun p hp => by cases hp) hperm
  have hother : address 4 ≠ guest.address := by decide
  rw [← hsame'] at hother
  exact ⟨response, s', a', b', sent, hserved, hresponds, hsent, htwo, hreceived, (hfollows.trusted _).mpr
    ⟨hother, member 4 [otherIpv4], ⟨(hsame (address 4) (hsame' ▸ hother)).trans (by decide), rfl, by decide⟩, rfl⟩⟩

end Service

end ManyTier
