import ManyTier.Node.Whois

/-! The answer to ECHO.

What was sent goes back in one packet, built in the same buffer as the answer to WHOIS
and with a hop count of one. The peer that sent it reads the same payload exactly when
the payload fits the buffer (`handleEcho_answered_iff`). -/
namespace ManyTier.Node

/-! ### What is sent -/

/-- An answer takes 37 bytes and the payload. -/
theorem length_echoAnswer (n : Node) (dest : ByteVec 5) (packetId inRePacketId : UInt64) (payload : Bytes) :
    (n.echoAnswer dest packetId inRePacketId payload).length = 37 + payload.length := by
  simp only [echoAnswer, OkPayload.serialize, OkPayload.serializeSub, List.length_append, length_plainHeader,
    List.length_cons, length_be64]
  omega

/-- The longest payload that is answered. -/
def echoAnswerLimit : Nat := 2011

section
variable {pr : Primitives}

variable (pr) in
theorem handleEcho_returns_iff (n : Node) (packet : Bytes) (fromAddr : SocketAddr) (packetId : UInt64) :
    (∃ n', n.handleEcho pr packet fromAddr packetId = .ok n') ↔
      (packet.drop Constants.minPacketLength).length ≤ echoAnswerLimit ∨ n.identity.secret = none ∨
        n.sharedSecretForPeer pr (PacketHeader.read packet).source = none := by
  set payload := packet.drop Constants.minPacketLength with hpayload
  unfold handleEcho
  simp only [← hpayload]
  split
  · rename_i hnothing
    rcases hnothing with hempty | hnone
    · have hnil : payload = [] := List.isEmpty_iff.mp hempty
      simp [hnil, echoAnswerLimit]
    · simp [Option.isNone_iff_eq_none.mp hnone]
  · rename_i hsome
    have hsecret : n.identity.secret ≠ none := fun hnone => hsome (.inr (by simp [hnone]))
    split
    · rename_i hkey
      simp [hkey]
    · rename_i secret hkey
      simp only [length_echoAnswer, hkey, hsecret, answerBufferSize, echoAnswerLimit]
      split
      · rename_i hover
        simp
        omega
      · rename_i hfits
        simp
        omega

variable (pr) in
/-- The packet is answered: one packet to the address it came from, in which the peer
that sent it reads an OK to this packet with the same payload. -/
def EchoAnswered (n : Node) (packet : Bytes) (fromAddr : SocketAddr) (n' : Node) : Prop :=
  ∃ secret sealed opened, n'.actions = n.actions ++ [.sendTo sealed fromAddr] ∧
    n.sharedSecretForPeer pr (PacketHeader.read packet).source = some secret ∧
    Salsa.dearmorPacket pr secret sealed = .ok opened ∧
    (PacketHeader.read opened).verb = Verb.ok.toByte ∧
    (PacketHeader.read opened).dest = (PacketHeader.read packet).source ∧
    OkPayload.deserialize (opened.drop Constants.minPacketLength) =
      .ok ⟨.echo, (PacketHeader.read packet).packetId, .generic (packet.drop Constants.minPacketLength)⟩

/-- The answer, opened by the peer it goes to. Its hop count is not part of what opens it. -/
theorem echoAnswer_opens (n : Node) (secret : Secret) (dest : ByteVec 5) (packetId inRePacketId : UInt64)
    (payload : Bytes) :
    ∃ sealed opened,
      Salsa.armorPacket pr secret (n.echoAnswer dest packetId inRePacketId payload) true = .ok sealed ∧
      Salsa.dearmorPacket pr secret sealed = .ok opened ∧ (PacketHeader.read opened).verb = Verb.ok.toByte ∧
      (PacketHeader.read opened).dest = dest ∧
      OkPayload.deserialize (opened.drop Constants.minPacketLength) =
        .ok ⟨.echo, inRePacketId, .generic payload⟩ := by
  have hsalsa : ((encryptedFlags ||| 0x01) >>> 3) &&& 0x07 = Constants.cipherSalsa2012 := by decide
  obtain ⟨sealed, opened, harmor, hopen, hverb, hdest, hpayload⟩ := opens_flagged pr secret packetId dest n.address
    hsalsa Verb.ok.toByte (OkPayload.serialize ⟨.echo, inRePacketId, .generic payload⟩)
  refine ⟨sealed, opened, harmor, hopen, hverb, hdest, ?_⟩
  rw [hpayload]
  exact OkPayload.deserialize_serialize_generic .echo inRePacketId payload (by decide) (by decide)

/-- An ECHO that is handled to its end is answered, if there is something to send back
and there are keys to send it under. -/
theorem echoAnswered_of_handled {n n' : Node} {packet : Bytes} {fromAddr : SocketAddr} {secret : Secret}
    (hpayload : packet.drop Constants.minPacketLength ≠ []) (hours : n.identity.secret ≠ none)
    (hsecret : n.sharedSecretForPeer pr (PacketHeader.read packet).source = some secret)
    (h : n.handleEcho pr packet fromAddr (PacketHeader.read packet).packetId = .ok n') :
    n.EchoAnswered pr packet fromAddr n' := by
  unfold handleEcho at h
  simp only at h
  split at h
  · rename_i hnothing
    rcases hnothing with hempty | hnone
    · exact absurd (List.isEmpty_iff.mp hempty) hpayload
    · exact absurd (Option.isNone_iff_eq_none.mp hnone) hours
  · rw [hsecret] at h
    simp only at h
    split at h
    · cases h
    · obtain ⟨sealed, opened, harmor, hopen, hverb, hdest, hread⟩ := echoAnswer_opens
        n.allocatePacketId.2 secret (PacketHeader.read packet).source n.allocatePacketId.1
        (PacketHeader.read packet).packetId (packet.drop Constants.minPacketLength)
      obtain rfl := Except.ok.inj h
      refine ⟨secret, sealed, opened, ?_, hsecret, hopen, hverb, hdest, hread⟩
      rw [sendArmored, harmor]
      rfl

/-- Without keys of its own a node answers nothing. -/
theorem not_echoAnswered_of_none {n n' : Node} {packet : Bytes} {fromAddr : SocketAddr} {packetId : UInt64}
    (hours : n.identity.secret = none) (h : n.handleEcho pr packet fromAddr packetId = .ok n') :
    ¬ n.EchoAnswered pr packet fromAddr n' := by
  have hnothing : n.handleEcho pr packet fromAddr packetId = .ok n := by
    simp [handleEcho, hours]
  obtain rfl : n = n' := Except.ok.inj (hnothing.symm.trans h)
  rintro ⟨secret, sealed, opened, hactions, -⟩
  simp at hactions

end

/-! ### A packet that is admitted -/

/-- ECHO returns what was sent up to a size. An authenticated packet with a payload is
handled to its end and answered exactly when the payload is at most 2011 bytes long and
the node has keys of its own. -/
theorem handleEcho_answered_iff (pr : Primitives) (n : Node) (data : Bytes) (fromAddr : SocketAddr)
    (now : UInt64) (d : Dispatch) (hadmitted : n.admitPacket pr data fromAddr now = .dispatch d)
    (hopened : (n.dearmor pr data).isSome = true) (hpayload : d.packet.drop Constants.minPacketLength ≠ []) :
    (∃ n', d.node.handleEcho pr d.packet fromAddr d.packetId = .ok n' ∧
      d.node.EchoAnswered pr d.packet fromAddr n') ↔
    (d.packet.drop Constants.minPacketLength).length ≤ 2011 ∧ n.identity.secret ≠ none := by
  obtain ⟨-, -, -, -, -, hnode, -⟩ := admitPacket_dispatch hadmitted
  obtain ⟨secret, hsecret⟩ := sharedSecret_dispatch hadmitted hopened
  have hours : d.node.identity = n.identity := by
    rw [hnode]
    rfl
  have hreturns := handleEcho_returns_iff pr d.node d.packet fromAddr d.packetId
  rw [hsecret, hours] at hreturns
  simp only [reduceCtorEq, or_false, echoAnswerLimit] at hreturns
  have hid := packetId_dispatch hadmitted
  constructor
  · rintro ⟨n', h, hanswered⟩
    have hsome : n.identity.secret ≠ none := by
      rw [← hours]
      exact fun hnone => not_echoAnswered_of_none hnone h hanswered
    exact ⟨(hreturns.mp ⟨n', h⟩).resolve_right hsome, hsome⟩
  · rintro ⟨hfits, hsome⟩
    obtain ⟨n', h⟩ := hreturns.mpr (.inl hfits)
    refine ⟨n', h, ?_⟩
    rw [← hid] at h
    exact echoAnswered_of_handled hpayload (by rw [hours]; exact hsome) hsecret h

/-- What a party of the worked examples sends is sealed under the key it agrees on with
number 1. -/
theorem armor_sentBy (k : UInt8) (packetId : UInt64) (verb : Verb) (payload : Bytes) :
    Salsa.armorPacket Sample.primitives (KeyAgreement.keyAgree Sample.primitives (Sample.key 1) (Sample.key k))
      (encryptedVerbPacket packetId (Sample.identity k).address.bytes (Sample.identity 1).address.bytes verb payload)
      true = .ok (Sample.sentBy k packetId verb payload) := by
  obtain ⟨sealed, hsealed⟩ := isOk_armorPacket_encrypted Sample.primitives
    (KeyAgreement.keyAgree Sample.primitives (Sample.key 1) (Sample.key k)) packetId
    (Sample.identity k).address.bytes (Sample.identity 1).address.bytes verb payload
  rw [Sample.sentBy, hsealed]

/-- Root number 2 has something sent back to it: number 1 opens the packet and hands it on. -/
theorem admitPacket_sampleEcho (payload : Bytes) :
    (Sample.start.dearmor Sample.primitives (Sample.sentBy 2 9 .echo payload)).isSome = true ∧
    ∃ d, Sample.start.admitPacket Sample.primitives (Sample.sentBy 2 9 .echo payload) (Sample.endpoint 20) 1000 =
        .dispatch d ∧ Verb.fromByte d.verbId = some .echo ∧ d.source = (Sample.identity 2).address.bytes ∧
      d.packet.drop Constants.minPacketLength = payload := by
  have hsealed := armor_sentBy 2 9 .echo payload
  have hsecret : Sample.start.sharedSecretForPeer Sample.primitives (Sample.identity 2).address.bytes =
      some (KeyAgreement.keyAgree Sample.primitives (Sample.key 1) (Sample.key 2)) := by decide
  obtain ⟨-, -, mac, hopen⟩ := dearmor_sealed (b := Sample.start) hsealed hsecret
  obtain ⟨d, hadmitted, hverb, -, hsource, hpayload⟩ := admitPacket_sealed (b := Sample.start) hsealed hsecret
    (by decide) (Sample.endpoint 20) 1000
  exact ⟨by rw [hopen]; rfl, d, hadmitted, hverb, hsource, hpayload⟩

/-- Three bytes are sent back. -/
theorem handleEcho_answered_three : ∃ d n',
    Sample.start.admitPacket Sample.primitives (Sample.sentBy 2 9 .echo [1, 2, 3]) (Sample.endpoint 20) 1000 =
      .dispatch d ∧
    d.node.handleEcho Sample.primitives d.packet (Sample.endpoint 20) d.packetId = .ok n' ∧
    d.node.EchoAnswered Sample.primitives d.packet (Sample.endpoint 20) n' := by
  obtain ⟨hopened, d, hadmitted, -, -, hpayload⟩ := admitPacket_sampleEcho [1, 2, 3]
  obtain ⟨n', hn', hanswered⟩ := (handleEcho_answered_iff Sample.primitives Sample.start _ _ _ d hadmitted hopened
    (by simp [hpayload])).mpr (by simp [hpayload, Sample.start, Sample.identity])
  exact ⟨d, n', hadmitted, hn', hanswered⟩

/-- Of 2012 bytes the answer does not fit its buffer. -/
theorem handleEcho_overflows : ¬ ∀ (pr : Primitives) (n : Node) (data : Bytes) (fromAddr : SocketAddr)
    (now : UInt64) (d : Dispatch), n.admitPacket pr data fromAddr now = .dispatch d →
    (n.dearmor pr data).isSome = true → Verb.fromByte d.verbId = some .echo →
    (n.topology.getPeer d.source).isSome = true → d.packet.drop Constants.minPacketLength ≠ [] →
    ∃ n', d.node.handleEcho pr d.packet fromAddr d.packetId = .ok n' ∧ d.node.EchoAnswered pr d.packet fromAddr n' := by
  intro hall
  obtain ⟨hopened, d, hadmitted, hverb, hsource, hpayload⟩ := admitPacket_sampleEcho (List.replicate 2012 7)
  have hsome : d.packet.drop Constants.minPacketLength ≠ [] := by
    intro hnil
    have hlength := congrArg List.length (hpayload.symm.trans hnil)
    rw [List.length_replicate] at hlength
    cases hlength
  obtain ⟨n', hn', -⟩ := hall Sample.primitives Sample.start _ _ _ d hadmitted hopened hverb
    (by rw [hsource]; decide) hsome
  have hkey : d.node.sharedSecretForPeer Sample.primitives (PacketHeader.read d.packet).source ≠ none := by
    obtain ⟨-, -, -, hsrc, -, hnode, -⟩ := admitPacket_dispatch hadmitted
    rw [source_dispatch hadmitted, hsrc, hnode, sharedSecretForPeer_noteSource]
    exact Option.isSome_iff_ne_none.mp (sharedSecret_of_dearmor hopened)
  have hours : d.node.identity.secret ≠ none := by
    obtain ⟨-, -, -, -, -, hnode, -⟩ := admitPacket_dispatch hadmitted
    rw [hnode]
    exact Option.some_ne_none _
  rcases (handleEcho_returns_iff Sample.primitives d.node d.packet _ _).mp ⟨n', hn'⟩ with hfits | hnone | hnone
  · rw [hpayload, List.length_replicate, echoAnswerLimit] at hfits
    omega
  · exact hours hnone
  · exact hkey hnone

end ManyTier.Node
