import ManyTier.Node.Handlers

/-! The controller's answer to a configuration request.

A dictionary is cut into chunks of 1024 bytes, each signed and sent as a compressed
OK(NETWORK_CONFIG_REQUEST). `decodeResponse` is how a node reads such a packet, and
`responses_assemble` says what a node makes of them in any order of delivery. -/
namespace ManyTier

namespace Service
variable (pr : Primitives)

def networkConfigChunkBytes : Nat := 1024

/-- An encrypted packet before it is armored; its payload compressed or not. -/
def verbPacket (packetId : UInt64) (sourceAddress destAddress : ByteVec 5) (verb : Verb)
    (payload : Bytes) (compress : Bool) : Bytes :=
  plainHeader packetId destAddress sourceAddress encryptedFlags
      (verb.toByte ||| if compress then Constants.verbFlagCompressed else 0) ++
    if compress then pr.lz4Compress payload else payload

/-- What the signature of a chunk covers. -/
def chunkSigned (networkId configUpdateId : UInt64) (dictData : Bytes) (i : Nat) : Bytes :=
  let chunk := slice dictData (i * networkConfigChunkBytes) networkConfigChunkBytes
  be64 networkId ++ be16 (UInt16.ofNat chunk.length) ++ chunk ++ [0] ++ be64 configUpdateId ++
    be32 (UInt32.ofNat dictData.length) ++ be32 (UInt32.ofNat (i * networkConfigChunkBytes))

/-- Chunk `i` of a dictionary. -/
def chunkConfig (signingKey : ByteVec 32) (networkId configUpdateId : UInt64) (dictData : Bytes)
    (i : Nat) : NetworkConfigPayload where
  networkId
  dictData := slice dictData (i * networkConfigChunkBytes) networkConfigChunkBytes
  flags := some 0
  configUpdateId := some configUpdateId
  totalLength := some (UInt32.ofNat dictData.length)
  chunkIndex := some (UInt32.ofNat (i * networkConfigChunkBytes))
  signatureType := some 1
  signature := some (Signing.sign pr signingKey
    (chunkSigned networkId configUpdateId dictData i)).toBytes

/-- The chunk as the answer to a request. -/
def chunkAnswer (requestPacketId : UInt64) (config : NetworkConfigPayload) : Bytes :=
  OkPayload.serialize ⟨.networkConfigRequest, requestPacketId, .generic config.serialize⟩

/-- One packet per chunk, each with an id of the counter; nothing without a signing key. -/
def responseChunks (requesterAddress : ByteVec 5) (requestPacketId networkId configUpdateId : UInt64)
    (dictData : Bytes) (sharedSecret : Secret) : List Nat → Node → Node × Option (List Bytes)
  | [], n => (n, some [])
  | i :: rest, n =>
    match n.identity.secret with
    | none => (n, none)
    | some ours =>
      let config := chunkConfig pr ours.signing networkId configUpdateId dictData i
      let (packetId, n) := n.allocatePacketId
      let packet := verbPacket pr packetId n.address requesterAddress .ok
        (chunkAnswer requestPacketId config) true
      match Salsa.armorPacket pr sharedSecret packet true with
      | .error _ => (n, none)
      | .ok sealed =>
        let (n, packets) := responseChunks requesterAddress requestPacketId networkId configUpdateId
          dictData sharedSecret rest { n with armored := n.armored ++ [⟨sharedSecret, packet⟩] }
        (n, packets.map (sealed :: ·))

/-- The packets of an answer. The update takes an id of the counter too. -/
def buildNetworkConfigResponsePackets (n : Node) (requesterAddress : ByteVec 5)
    (requestPacketId networkId : UInt64) (dictData : Bytes) (sharedSecret : Secret) :
    Node × Option (List Bytes) :=
  if 2 ^ 32 ≤ dictData.length then (n, none)
  else
    let (configUpdateId, n) := n.allocatePacketId
    responseChunks pr requesterAddress requestPacketId networkId configUpdateId dictData sharedSecret
      (List.range (chunkCount dictData networkConfigChunkBytes)) n

/-- How a node reads such a packet: opened, decompressed, and the configuration taken
out of the OK. -/
def decodeResponse (sharedSecret : Secret) (packet : Bytes) : Option NetworkConfigPayload := do
  let opened ← (Salsa.dearmorPacket pr sharedSecret packet).toOption
  let clear ←
    if byteAt opened 27 &&& Constants.verbFlagCompressed ≠ 0 then Node.decompressPacket pr opened
    else some opened
  if Verb.fromByte (byteAt clear 27) ≠ some .ok then none
  else
    let ok ← (OkPayload.deserialize (clear.drop Constants.minPacketLength)).toOption
    Node.okConfig ok

/-! ### Reading the packets back -/

/-- LZ4 gives back what it compressed, if it fits the buffer. -/
def Lz4RoundTrips (pr : Primitives) : Prop :=
  ∀ data capacity, data.length ≤ capacity → pr.lz4Decompress (pr.lz4Compress data) capacity = some data

theorem length_chunkAnswer (signingKey : ByteVec 32) (requestPacketId networkId configUpdateId : UInt64)
    (dictData : Bytes) (i : Nat) :
    (chunkAnswer requestPacketId (chunkConfig pr signingKey networkId configUpdateId dictData i)).length ≤
      1159 := by
  have hchunk : (slice dictData (i * networkConfigChunkBytes) networkConfigChunkBytes).length ≤ 1024 := by
    simp [networkConfigChunkBytes]
  simp [chunkAnswer, OkPayload.serialize, OkPayload.serializeSub, NetworkConfigPayload.serialize,
    NetworkConfigPayload.serializeChunk, chunkConfig] at hchunk ⊢
  omega

/-- A chunk reads back from its answer. -/
theorem okConfig_chunkAnswer (signingKey : ByteVec 32)
    (requestPacketId networkId configUpdateId : UInt64) (dictData : Bytes) (i : Nat) :
    ∃ ok, OkPayload.deserialize (chunkAnswer requestPacketId
        (chunkConfig pr signingKey networkId configUpdateId dictData i)) = .ok ok ∧
      Node.okConfig ok = some (chunkConfig pr signingKey networkId configUpdateId dictData i) := by
  refine ⟨_, OkPayload.deserialize_serialize_generic _ _ _ (by decide) (by decide), ?_⟩
  have hread : NetworkConfigPayload.deserialize
      (chunkConfig pr signingKey networkId configUpdateId dictData i).serialize =
        .ok (chunkConfig pr signingKey networkId configUpdateId dictData i) := by
    apply NetworkConfigPayload.deserialize_serialize_chunk
    · simp [networkConfigChunkBytes]
    · simp
  simp [Node.okConfig, hread, Except.toOption]

/-- The packet of a chunk reads back as the chunk. -/
theorem decodeResponse_chunk {pr : Primitives} (hlz4 : Lz4RoundTrips pr) (sharedSecret : Secret)
    (packetId : UInt64) (source dest : ByteVec 5) (signingKey : ByteVec 32)
    (requestPacketId networkId configUpdateId : UInt64) (dictData : Bytes) (i : Nat) :
    let config := chunkConfig pr signingKey networkId configUpdateId dictData i
    ∃ sealed, Salsa.armorPacket pr sharedSecret
        (verbPacket pr packetId source dest .ok (chunkAnswer requestPacketId config) true) true = .ok sealed ∧
      decodeResponse pr sharedSecret sealed = some config := by
  intro config
  set answer := chunkAnswer requestPacketId config with hanswer
  obtain ⟨sealed, mac, harmor, -, -, hopen⟩ := dearmor_encrypted pr sharedSecret packetId dest source
    (Verb.ok.toByte ||| Constants.verbFlagCompressed) (pr.lz4Compress answer)
  refine ⟨sealed, harmor, ?_⟩
  set opened := PacketHeader.toBytes ⟨fieldAt 8 (be64 packetId) 0, dest, source, encryptedFlags, mac,
    Verb.ok.toByte ||| Constants.verbFlagCompressed⟩ ++ pr.lz4Compress answer with hopened
  have hverb : byteAt opened 27 = Verb.ok.toByte ||| Constants.verbFlagCompressed :=
    congrArg PacketHeader.verb (PacketHeader.read_toBytes _ _)
  have hdrop : opened.drop Constants.minPacketLength = pr.lz4Compress answer :=
    List.drop_left' (by simp [Constants.minPacketLength])
  have hlz : pr.lz4Decompress (pr.lz4Compress answer)
      (Node.packetDecompressCapacity - Constants.minPacketLength) = some answer := by
    apply hlz4
    have := length_chunkAnswer pr signingKey requestPacketId networkId configUpdateId dictData i
    simp only [Node.packetDecompressCapacity, Constants.minPacketLength, hanswer, config]
    omega
  have htake : (opened.take 27).length = 27 := by
    simp [hopened]
    omega
  have hclear : Node.decompressPacket pr opened = some (opened.take 27 ++ (Verb.ok.toByte :: answer)) := by
    have hlen : ¬ opened.length < Constants.minPacketLength := by
      simp [hopened, Constants.minPacketLength]
    rw [Node.decompressPacket, if_neg hlen, hdrop, hlz, hverb]
    rfl
  have hok : byteAt (opened.take 27 ++ (Verb.ok.toByte :: answer)) 27 = Verb.ok.toByte := by
    rw [show 27 = 27 + 0 from rfl, byteAt_behind htake, byteAt_cons_zero]
  have hrest : (opened.take 27 ++ (Verb.ok.toByte :: answer)).drop Constants.minPacketLength = answer := by
    rw [drop_append (by simp [htake, Constants.minPacketLength]), htake]
    rfl
  obtain ⟨ok, hdes, hconfig⟩ :=
    okConfig_chunkAnswer pr signingKey requestPacketId networkId configUpdateId dictData i
  have hflag : (Verb.ok.toByte ||| Constants.verbFlagCompressed) &&& Constants.verbFlagCompressed ≠ 0 := by
    decide
  have hread : OkPayload.deserialize answer = .ok ok := hdes
  rw [decodeResponse, hopen]
  simp only [Except.toOption, Option.bind_eq_bind, Option.bind_some, hverb, if_pos hflag, hclear, hok,
    Verb.fromByte_toByte, ne_eq, not_true_eq_false, if_false, hrest, hread]
  exact hconfig

/-- Each packet of an answer reads back as its chunk. -/
theorem responseChunks_decode {pr : Primitives} (hlz4 : Lz4RoundTrips pr) (requesterAddress : ByteVec 5)
    (requestPacketId networkId configUpdateId : UInt64) (dictData : Bytes) (sharedSecret : Secret)
    (chunks : List Nat) (n : Node) {ours : SecretKey} (hours : n.identity.secret = some ours) :
    ∃ packets, (responseChunks pr requesterAddress requestPacketId networkId configUpdateId dictData
        sharedSecret chunks n).2 = some packets ∧
      List.Forall₂ (fun i packet => decodeResponse pr sharedSecret packet =
        some (chunkConfig pr ours.signing networkId configUpdateId dictData i)) chunks packets := by
  induction chunks generalizing n with
  | nil => exact ⟨[], rfl, .nil⟩
  | cons i rest ih =>
    obtain ⟨sealed, harmor, hdecode⟩ := decodeResponse_chunk hlz4 sharedSecret n.nextPacketId n.address
      requesterAddress ours.signing requestPacketId networkId configUpdateId dictData i
    rw [responseChunks, hours]
    simp only [Node.allocatePacketId]
    have haddr : Node.address { n with nextPacketId := Node.succPacketId n.nextPacketId } = n.address := rfl
    rw [haddr, harmor]
    obtain ⟨packets, hpackets, hall⟩ := ih { n with
      nextPacketId := Node.succPacketId n.nextPacketId
      armored := n.armored ++ [⟨sharedSecret, verbPacket pr n.nextPacketId n.address requesterAddress .ok
        (chunkAnswer requestPacketId (chunkConfig pr ours.signing networkId configUpdateId dictData i))
        true⟩] } hours
    exact ⟨sealed :: packets, by simp [hpackets], .cons hdecode hall⟩

/-- What the packets of an answer are: one per chunk, each reading back as it. -/
theorem buildResponse_decode {pr : Primitives} (hlz4 : Lz4RoundTrips pr) {n : Node}
    {requesterAddress : ByteVec 5} {requestPacketId networkId : UInt64} {dictData : Bytes}
    {sharedSecret : Secret} {packets : List Bytes} (hdict : dictData ≠ [])
    (h : (buildNetworkConfigResponsePackets pr n requesterAddress requestPacketId networkId dictData
      sharedSecret).2 = some packets) :
    ∃ signingKey, packets.length = chunkCount dictData networkConfigChunkBytes ∧
      ∀ i < packets.length, decodeResponse pr sharedSecret (packets.getD i []) =
        some (chunkConfig pr signingKey networkId n.nextPacketId dictData i) := by
  unfold buildNetworkConfigResponsePackets at h
  split at h
  · cases h
  · simp only [Node.allocatePacketId] at h
    have hcount : 0 < chunkCount dictData networkConfigChunkBytes := by
      rw [lt_chunkCount (by decide)]
      simpa using List.length_pos_iff.mpr hdict
    cases hours : n.identity.secret with
    | none =>
      obtain ⟨k, hk⟩ : ∃ k, chunkCount dictData networkConfigChunkBytes = k + 1 :=
        ⟨_, (Nat.succ_pred_eq_of_pos hcount).symm⟩
      rw [hk, List.range_succ_eq_map, responseChunks] at h
      simp only [hours] at h
      cases h
    | some ours =>
      obtain ⟨packets', hpackets, hall⟩ := responseChunks_decode hlz4 requesterAddress requestPacketId
        networkId n.nextPacketId dictData sharedSecret
        (List.range (chunkCount dictData networkConfigChunkBytes))
        { n with nextPacketId := Node.succPacketId n.nextPacketId } hours
      rw [hpackets] at h
      cases h
      have hlen := hall.length_eq
      rw [List.length_range] at hlen
      refine ⟨ours.signing, hlen.symm, ?_⟩
      intro i hi
      have hget := List.Forall₂.get hall (i := i) (by simpa [hlen] using hi) hi
      simpa [hi] using hget

/-! ### Delivery -/

/-- What arrives at the assembling node: a packet of the answer, or a configuration or
chunk of another network. -/
inductive ConfigDelivery where
  | response (number : Nat)
  | other (nc : NetworkConfigPayload)

namespace ConfigDelivery

/-- The deliveries are of the answer's packets and of other networks. -/
def For (networkId : UInt64) (count : Nat) : ConfigDelivery → Prop
  | response number => number < count
  | other nc => nc.networkId ≠ networkId

def brings : ConfigDelivery → Finset Nat
  | response number => {number}
  | other _ => ∅

end ConfigDelivery

/-- A delivery decoded and assembled. -/
def deliverConfig (sharedSecret : Secret) (packets : List Bytes) (pending : List PendingNetworkConfig) :
    ConfigDelivery → List PendingNetworkConfig × Option NetworkConfigPayload
  | .response number =>
    match decodeResponse pr sharedSecret (packets.getD number []) with
    | some nc => assembleNetworkConfig pending nc
    | none => (pending, none)
  | .other nc => assembleNetworkConfig pending nc

def deliverConfigs (sharedSecret : Secret) (packets : List Bytes) (pending : List PendingNetworkConfig) :
    List ConfigDelivery → List PendingNetworkConfig
  | [] => pending
  | d :: rest => deliverConfigs sharedSecret packets (deliverConfig pr sharedSecret packets pending d).1 rest

/-- The numbers of the chunks among the deliveries. -/
def deliveredChunks (ds : List ConfigDelivery) : Finset Nat :=
  Collector.supplied (ds.map ConfigDelivery.brings)

section
variable {pr : Primitives} {sharedSecret : Secret} {packets : List Bytes} {signingKey : ByteVec 32}
  {networkId configUpdateId : UInt64} {dictData : Bytes}

/-- Chunk `i` is a chunk inside its bounds. -/
theorem chunkOf_chunkConfig (hbound : dictData.length ≤ maxNetworkConfigSize) {i : Nat}
    (hi : i * networkConfigChunkBytes < dictData.length) :
    (chunkConfig pr signingKey networkId configUpdateId dictData i).ChunkOf configUpdateId
        (UInt32.ofNat dictData.length) (UInt32.ofNat (i * networkConfigChunkBytes)) ∧
      (UInt32.ofNat dictData.length).toNat = dictData.length ∧
      (UInt32.ofNat (i * networkConfigChunkBytes)).toNat = i * networkConfigChunkBytes := by
  have hmax : maxNetworkConfigSize < 2 ^ 32 := by decide
  have htotal : (UInt32.ofNat dictData.length).toNat = dictData.length := by
    simp
    omega
  have hindex : (UInt32.ofNat (i * networkConfigChunkBytes)).toNat = i * networkConfigChunkBytes := by
    simp
    omega
  refine ⟨⟨rfl, rfl, rfl, ?_, ?_, ?_⟩, htotal, hindex⟩
  · omega
  · rw [htotal, hindex]
    simp [chunkConfig]
    omega
  · omega

/-- One delivery is one step of the collector over the chunk numbers. -/
theorem deliverConfig_step (hbound : dictData.length ≤ maxNetworkConfigSize)
    (hcount : packets.length = chunkCount dictData networkConfigChunkBytes)
    (hdecode : ∀ i < packets.length, decodeResponse pr sharedSecret (packets.getD i []) =
      some (chunkConfig pr signingKey networkId configUpdateId dictData i))
    {held : Finset Nat} {pending : List PendingNetworkConfig} {d : ConfigDelivery}
    (hmissing : ¬ Finset.range packets.length ⊆ held) (hfor : d.For networkId packets.length)
    (h : ConfigsHold dictData networkConfigChunkBytes networkId configUpdateId held pending) :
    let c := Collector.step (Finset.range packets.length) held d.brings
    let r := deliverConfig pr sharedSecret packets pending d
    ConfigsHold dictData networkConfigChunkBytes networkId configUpdateId c.1 r.1 ∧
      ∀ i, d = .response i → r.2 = if c.2 then
        some { chunkConfig pr signingKey networkId configUpdateId dictData i with
          dictData := dictData, chunkIndex := some 0, signature := none } else none := by
  intro c r
  cases d with
  | response number =>
    have hi : number * networkConfigChunkBytes < dictData.length :=
      (lt_chunkCount (by decide) number).mp (hcount ▸ hfor)
    obtain ⟨hchunk, htotal, hindex⟩ := @chunkOf_chunkConfig pr signingKey networkId configUpdateId dictData
      hbound number hi
    have hr : r = assembleNetworkConfig pending
        (chunkConfig pr signingKey networkId configUpdateId dictData number) := by
      simp only [r, deliverConfig, hdecode number hfor]
    have hc : c = Collector.step (Finset.range (chunkCount dictData networkConfigChunkBytes)) held
        {number} := by
      simp only [c, hcount]
      rfl
    obtain ⟨hholds, hout⟩ :=
      assembleNetworkConfig_step h (by decide) hbound hi rfl rfl hchunk htotal hindex
    rw [hr, hc]
    refine ⟨hholds, ?_⟩
    rintro i ⟨⟩
    exact hout
  | other nc =>
    have hc : c = (held, false) := Collector.step_nothing _ _ hmissing
    rw [hc]
    refine ⟨h.other hfor, ?_⟩
    rintro i ⟨⟩

/-- What is assembled after any deliveries is what the collector holds. -/
theorem deliverConfigs_holds (hbound : dictData.length ≤ maxNetworkConfigSize) (hdict : dictData ≠ [])
    (hcount : packets.length = chunkCount dictData networkConfigChunkBytes)
    (hdecode : ∀ i < packets.length, decodeResponse pr sharedSecret (packets.getD i []) =
      some (chunkConfig pr signingKey networkId configUpdateId dictData i))
    (ds : List ConfigDelivery) (hfor : ∀ d ∈ ds, d.For networkId packets.length) (held : Finset Nat)
    (pending : List PendingNetworkConfig) (hmissing : ¬ Finset.range packets.length ⊆ held)
    (h : ConfigsHold dictData networkConfigChunkBytes networkId configUpdateId held pending) :
    let held' := Collector.run (Finset.range packets.length) held (ds.map ConfigDelivery.brings)
    ¬ Finset.range packets.length ⊆ held' ∧
      ConfigsHold dictData networkConfigChunkBytes networkId configUpdateId held'
        (deliverConfigs pr sharedSecret packets pending ds) := by
  have hsome : (Finset.range packets.length).Nonempty := by
    refine ⟨0, Finset.mem_range.mpr ?_⟩
    rw [hcount, lt_chunkCount (by decide)]
    simpa using List.length_pos_iff.mpr hdict
  induction ds generalizing held pending with
  | nil => exact ⟨hmissing, h⟩
  | cons d rest ih =>
    obtain ⟨hd, hrest⟩ := List.forall_mem_cons.mp hfor
    have hstep := deliverConfig_step hbound hcount hdecode hmissing hd h
    exact ih hrest _ _ (Collector.step_missing _ _ _ hsome) hstep.1

end

/-- The packets of an answer, in any order, with repetitions and among what arrives for
other networks, give the dictionary with the last missing chunk and not before, and
nothing else at any time; and throughout there is one assembly per network, with
buffers of the announced length, at most 1 MiB, and its received bytes counted. -/
theorem responses_assemble (pr : Primitives) (hlz4 : Lz4RoundTrips pr) (controller : Node)
    (requesterAddress : ByteVec 5) (requestPacketId networkId : UInt64) (dictData : Bytes)
    (sharedSecret : Secret) (packets : List Bytes) (hdict : 1 ≤ dictData.length)
    (hbound : dictData.length ≤ 1048576)
    (hpackets : (buildNetworkConfigResponsePackets pr controller requesterAddress requestPacketId
      networkId dictData sharedSecret).2 = some packets)
    (start : List PendingNetworkConfig) (hstart : PendingConfigsOk start)
    (hfresh : ∀ p ∈ start, p.networkId = networkId → p.configUpdateId ≠ controller.nextPacketId)
    (before : List ConfigDelivery) (hfor : ∀ d ∈ before, d.For networkId packets.length) :
    let pending := deliverConfigs pr sharedSecret packets start before
    PendingConfigsOk pending ∧
      ∀ number < packets.length,
        let r := deliverConfig pr sharedSecret packets pending (.response number)
        let missing := Finset.range packets.length \ deliveredChunks before
        PendingConfigsOk r.1 ∧ (¬ missing ⊆ {number} → r.2 = none) ∧
          (missing = {number} → ∃ nc, r.2 = some nc ∧ nc.networkId = networkId ∧ nc.dictData = dictData) ∧
          ∀ nc, r.2 = some nc → nc.networkId = networkId ∧ nc.dictData = dictData := by
  have hne : dictData ≠ [] := List.length_pos_iff.mp hdict
  obtain ⟨signingKey, hcount, hdecode⟩ := buildResponse_decode hlz4 hne hpackets
  have hhold : ConfigsHold dictData networkConfigChunkBytes networkId controller.nextPacketId ∅ start :=
    ⟨hstart, fun p hp hnet hupd => absurd hupd (hfresh p hp hnet), fun _ => rfl⟩
  have hnone : ¬ Finset.range packets.length ⊆ ∅ := by
    intro hsub
    rw [hcount] at hsub
    have hzero : 0 ∈ Finset.range (chunkCount dictData networkConfigChunkBytes) := by
      rw [Finset.mem_range, lt_chunkCount (by decide)]
      omega
    exact Finset.notMem_empty _ (hsub hzero)
  obtain ⟨hmiss, hholds⟩ := deliverConfigs_holds hbound hne hcount hdecode before hfor ∅ start hnone hhold
  intro pending
  refine ⟨hholds.ok, ?_⟩
  intro number hnumber r missing
  have hstep := deliverConfig_step (d := .response number) hbound hcount hdecode hmiss hnumber hholds
  have hout := hstep.2 number rfl
  set held := Collector.run (Finset.range packets.length) ∅ (before.map ConfigDelivery.brings)
  obtain ⟨hnot, hlast⟩ := Collector.report_missing (Finset.range packets.length)
    (before.map ConfigDelivery.brings) number
  refine ⟨hstep.1.ok, ?_, ?_, ?_⟩
  · intro hother
    refine hout.trans (if_neg ?_)
    rw [ConfigDelivery.brings, hnot hother]
    decide
  · intro hmissing
    exact ⟨_, hout.trans (if_pos (hlast hmissing)), rfl, rfl⟩
  · intro nc hnc
    have hnc' : _ = some nc := hout.symm.trans hnc
    split at hnc'
    · cases hnc'
      exact ⟨rfl, rfl⟩
    · cases hnc'

theorem lz4RoundTrips_sample : Lz4RoundTrips Sample.primitives := by
  intro data capacity h
  show (Sample.literals (Sample.lz4Compress data)).filter _ = some data
  rw [Sample.literals_lz4Compress, Option.filter_some, if_pos (by simpa using h)]

/-- A dictionary of two chunks, the first given twice and then the second. -/
theorem responses_assemble_two_chunks :
    ∃ (dictData : Bytes) (packets : List Bytes), dictData.length = 1030 ∧
      (buildNetworkConfigResponsePackets Sample.primitives Sample.start (ByteVec.zero 5) 7
        0x0a00000001000001 dictData (ByteVec.zero 48)).2 = some packets ∧
      ∃ nc, (deliverConfig Sample.primitives (ByteVec.zero 48) packets
          (deliverConfigs Sample.primitives (ByteVec.zero 48) packets [] [.response 0, .response 0])
          (.response 1)).2 = some nc ∧ nc.dictData = dictData := by
  obtain ⟨dict, hdict⟩ : ∃ dict : Bytes, dict.length = 1030 := ⟨List.replicate 1030 0x61, List.length_replicate⟩
  have hcount : chunkCount dict networkConfigChunkBytes = 2 := by
    rw [chunkCount, hdict, networkConfigChunkBytes]
  obtain ⟨packets, hpackets, hall⟩ := responseChunks_decode lz4RoundTrips_sample (ByteVec.zero 5) 7
    0x0a00000001000001 2 dict (ByteVec.zero 48) (List.range 2) { Sample.start with nextPacketId := 3 } rfl
  have hlen : packets.length = 2 := by simpa using hall.length_eq.symm
  have hbuild : (buildNetworkConfigResponsePackets Sample.primitives Sample.start (ByteVec.zero 5) 7
      0x0a00000001000001 dict (ByteVec.zero 48)).2 = some packets := by
    rw [buildNetworkConfigResponsePackets, if_neg (by omega), hcount]
    exact hpackets
  obtain ⟨-, hdeliver⟩ := responses_assemble Sample.primitives lz4RoundTrips_sample Sample.start
    (ByteVec.zero 5) 7 0x0a00000001000001 dict (ByteVec.zero 48) packets (by omega) (by omega) hbuild []
    ⟨List.nodup_nil, by simp⟩ (by simp) [.response 0, .response 0] (by simp [ConfigDelivery.For, hlen])
  obtain ⟨-, -, hlast, -⟩ := hdeliver 1 (by omega)
  have hmissing : Finset.range packets.length \ deliveredChunks [.response 0, .response 0] = {1} := by
    rw [hlen]
    decide
  obtain ⟨nc, hnc, -, hnc'⟩ := hlast hmissing
  exact ⟨dict, packets, hdict, hbuild, nc, hnc, hnc'⟩

end Service
end ManyTier
