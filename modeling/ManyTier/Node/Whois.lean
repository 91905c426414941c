import ManyTier.Node.Sessions
import ManyTier.Protocol.RoundTrip

/-! The answer to WHOIS.

A request lists any number of addresses. The identities of those that are known go
back in one packet, built in a buffer of fixed size, and the others are asked for. The
answer is complete exactly when what is known fits the buffer
(`handleWhois_complete_iff`). -/
namespace ManyTier

namespace Node
variable (pr : Primitives)

/-! ### What is known -/

/-- The identity another party is told for an address: ours, or that of a peer. -/
def knownIdentity (n : Node) (address : ByteVec 5) : Option Identity :=
  if address = n.address then some n.identity.withoutSecret
  else (n.topology.getPeer address).map fun peer => peer.identity.withoutSecret

/-- Known and unknown addresses, each in the order of the request. -/
theorem whoisLookup_eq (n : Node) (addresses : List (ByteVec 5)) :
    n.whoisLookup addresses =
      (addresses.filterMap n.knownIdentity, addresses.filter fun a => (n.knownIdentity a).isNone) := by
  induction addresses with
  | nil => rfl
  | cons address rest ih =>
    rw [whoisLookup, ih]
    simp only
    by_cases hours : address = n.address
    · have hknown : n.knownIdentity address = some n.identity.withoutSecret := by
        rw [knownIdentity, if_pos hours]
      simp [← hours, hknown, Identity.withoutSecret]
    · rw [if_neg hours]
      cases hpeer : n.topology.getPeer address with
      | some peer =>
        have hknown : n.knownIdentity address = some peer.identity.withoutSecret := by
          rw [knownIdentity, if_neg hours, hpeer]
          rfl
        simp [Identity.parse_toPublicString, hknown, Identity.withoutSecret]
      | none =>
        have hknown : n.knownIdentity address = none := by
          rw [knownIdentity, if_neg hours, hpeer]
          rfl
        simp [hknown]

/-! ### What is sent -/

/-- An answer takes 37 bytes and 71 for each identity. -/
theorem length_whoisAnswer (n : Node) (dest : ByteVec 5) (inRePacketId : UInt64) (identities : List Identity)
    (now : UInt64) : (n.whoisAnswer dest inRePacketId identities now).length = 37 + 71 * identities.length := by
  rw [whoisAnswer, encryptedVerbPacket, List.length_append, length_plainHeader, OkPayload.serialize]
  simp only [List.length_cons, List.length_append, length_be64, OkPayload.serializeSub,
    OkPayload.length_identities]
  omega

/-- The identities an answer can hold. -/
def whoisAnswerLimit : Nat := 28

theorem answerWhois_returns_iff (n : Node) (dest : ByteVec 5) (inRePacketId : UInt64) (known : List Identity)
    (fromAddr : SocketAddr) (now : UInt64) :
    (∃ n', n.answerWhois pr dest inRePacketId known fromAddr now = .ok n') ↔
      known.length ≤ whoisAnswerLimit ∨ n.sharedSecretForPeer pr dest = none := by
  unfold answerWhois
  split
  · rename_i hempty
    have hnil : known = [] := List.isEmpty_iff.mp hempty
    simp [hnil]
  · split
    · rename_i hnone
      simp [hnone]
    · rename_i secret hsecret
      simp only [length_whoisAnswer, answerBufferSize, whoisAnswerLimit, hsecret]
      split
      · rename_i hover
        simp
        omega
      · rename_i hfits
        simp
        omega

/-- A WHOIS is handled to its end unless too many of the addresses are known, or there
is no key for the peer that asks. -/
theorem handleWhois_returns_iff (n : Node) (packet : Bytes) (fromAddr : SocketAddr) (now : UInt64) :
    let requested := WhoisRequest.deserialize (packet.drop Constants.minPacketLength)
    (∃ n', n.handleWhois pr packet fromAddr now = .ok n') ↔
      (requested.filterMap n.knownIdentity).length ≤ whoisAnswerLimit ∨
        n.sharedSecretForPeer pr (PacketHeader.read packet).source = none := by
  intro requested
  rw [← answerWhois_returns_iff pr n (PacketHeader.read packet).source (PacketHeader.read packet).packetId _
    fromAddr now]
  unfold handleWhois
  split
  · rename_i hshort
    have hnothing : requested = [] := by
      simp [requested, WhoisRequest.deserialize, List.drop_of_length_le hshort]
    simp [hnothing, answerWhois]
  · simp only [whoisLookup_eq]
    split
    · rename_i e hanswer
      simp [requested, hanswer]
    · rename_i answered hanswer
      simp [requested, hanswer]

/-- The request is answered in full: one OK(WHOIS) with the identities known, in the
order of the request, readable under the key of the peer that asked, if there are any,
and one request to resolve the others, if there are any. -/
def WhoisAnswered (n : Node) (packet : Bytes) (fromAddr : SocketAddr) (n' : Node) : Prop :=
  let requested := WhoisRequest.deserialize (packet.drop Constants.minPacketLength)
  let known := requested.filterMap n.knownIdentity
  let unknown := requested.filter fun a => (n.knownIdentity a).isNone
  ∃ answer, n'.actions = n.actions ++ (answer ++ if unknown = [] then [] else [.whoisNeeded unknown]) ∧
    ((known = [] ∧ answer = []) ∨
      (known ≠ [] ∧ ∃ secret sealed opened, answer = [.sendTo sealed fromAddr] ∧
        n.sharedSecretForPeer pr (PacketHeader.read packet).source = some secret ∧
        Salsa.dearmorPacket pr secret sealed = .ok opened ∧
        (PacketHeader.read opened).verb = Verb.ok.toByte ∧
        (PacketHeader.read opened).dest = (PacketHeader.read packet).source ∧
        OkPayload.deserialize (opened.drop Constants.minPacketLength) =
          .ok ⟨.whois, (PacketHeader.read packet).packetId, .whois known⟩))

variable {pr}

/-- What is known carries no secret. -/
theorem withoutSecret_knownIdentity (n : Node) (requested : List (ByteVec 5)) :
    (requested.filterMap n.knownIdentity).map Identity.withoutSecret = requested.filterMap n.knownIdentity := by
  have hsame : ∀ identity ∈ requested.filterMap n.knownIdentity, identity.withoutSecret = identity := by
    intro identity hmem
    obtain ⟨address, -, hknown⟩ := List.mem_filterMap.mp hmem
    unfold knownIdentity at hknown
    split at hknown
    · cases hknown
      rfl
    · obtain ⟨peer, -, rfl⟩ := Option.map_eq_some_iff.mp hknown
      rfl
  rw [List.map_congr_left hsame, List.map_id']

variable (pr) in
/-- The answer, opened by the peer it goes to. -/
theorem whoisAnswer_opens (n : Node) (secret : Secret) (dest : ByteVec 5) (inRePacketId : UInt64)
    (identities : List Identity) (now : UInt64) :
    ∃ sealed opened, Salsa.armorPacket pr secret (n.whoisAnswer dest inRePacketId identities now) true = .ok sealed ∧
      Salsa.dearmorPacket pr secret sealed = .ok opened ∧ (PacketHeader.read opened).verb = Verb.ok.toByte ∧
      (PacketHeader.read opened).dest = dest ∧
      OkPayload.deserialize (opened.drop Constants.minPacketLength) =
        .ok ⟨.whois, inRePacketId, .whois (identities.map Identity.withoutSecret)⟩ := by
  obtain ⟨sealed, opened, harmor, hopen, hverb, hdest, hpayload⟩ := opens_encrypted pr secret now n.address dest .ok
    (OkPayload.serialize ⟨.whois, inRePacketId, .whois identities⟩)
  refine ⟨sealed, opened, harmor, hopen, hverb, hdest, ?_⟩
  rw [hpayload]
  exact OkPayload.deserialize_serialize ⟨.whois, inRePacketId, .whois identities⟩ rfl

/-- A WHOIS that is handled to its end is answered in full, if there is a key for the
peer that asks. -/
theorem whoisAnswered_of_handled {n n' : Node} {packet : Bytes} {fromAddr : SocketAddr} {now : UInt64}
    {secret : Secret} (hsecret : n.sharedSecretForPeer pr (PacketHeader.read packet).source = some secret)
    (h : n.handleWhois pr packet fromAddr now = .ok n') : n.WhoisAnswered pr packet fromAddr n' := by
  unfold handleWhois at h
  split at h
  · rename_i hshort
    cases h
    exact ⟨[], by simp [WhoisRequest.deserialize, List.drop_of_length_le hshort],
      .inl ⟨by simp [WhoisRequest.deserialize, List.drop_of_length_le hshort], rfl⟩⟩
  · simp only [whoisLookup_eq] at h
    split at h
    · cases h
    · rename_i answered hanswer
      cases h
      set requested := WhoisRequest.deserialize (packet.drop Constants.minPacketLength)
      set known := requested.filterMap n.knownIdentity with hknown
      set unknown := requested.filter fun a => (n.knownIdentity a).isNone
      have hneeded : (if unknown.isEmpty then answered else answered.pushAction (.whoisNeeded unknown)).actions =
          answered.actions ++ if unknown = [] then [] else [.whoisNeeded unknown] := by
        by_cases hnil : unknown = []
        · simp [hnil]
        · simp [hnil, pushAction]
      unfold answerWhois at hanswer
      split at hanswer
      · rename_i hempty
        cases hanswer
        exact ⟨[], by rw [hneeded, List.nil_append], .inl ⟨List.isEmpty_iff.mp hempty, rfl⟩⟩
      · rename_i hsome
        rw [hsecret] at hanswer
        simp only at hanswer
        split at hanswer
        · cases hanswer
        · obtain ⟨sealed, opened, harmor, hopen, hverb, hdest, hread⟩ := whoisAnswer_opens pr n secret
            (PacketHeader.read packet).source (PacketHeader.read packet).packetId known now
          rw [hknown, withoutSecret_knownIdentity] at hread
          simp only [sendArmored, harmor] at hanswer
          cases hanswer
          refine ⟨[.sendTo sealed fromAddr], by rw [hneeded, List.append_assoc], .inr ⟨?_, ?_⟩⟩
          · exact fun hnil => hsome (List.isEmpty_iff.mpr hnil)
          · exact ⟨secret, sealed, opened, rfl, hsecret, hopen, hverb, hdest, hread⟩

/-! ### A request that is admitted -/

/-- There is a key for the source of a packet that was opened. -/
theorem sharedSecret_of_dearmor {n : Node} {data : Bytes} (h : (n.dearmor pr data).isSome = true) :
    (n.sharedSecretForPeer pr (PacketHeader.read data).source).isSome = true := by
  have hsalsa : ((n.sharedSecretForPeer pr (PacketHeader.read data).source).bind fun secret =>
      (Salsa.dearmorPacket pr secret data).toOption).isSome = true →
      (n.sharedSecretForPeer pr (PacketHeader.read data).source).isSome = true := by
    cases n.sharedSecretForPeer pr (PacketHeader.read data).source with
    | none => simp
    | some secret => simp
  unfold dearmor at h
  simp only at h
  split at h
  · split at h
    · cases h
    · exact hsalsa h
  · split at h
    · exact hsalsa h
    · split at h
      · -- The keys of AES belong to a session, which has a secret.
        unfold aesKeysForPeer at h
        unfold sharedSecretForPeer
        cases hpeer : n.topology.getPeer (PacketHeader.read data).source with
        | none => simp [hpeer] at h
        | some peer =>
          simp only [hpeer, Option.bind_some, Peer.aesKeys_eq, Peer.sharedSecret_eq] at h ⊢
          cases hkeys : peer.state.keys with
          | none => simp [hkeys] at h
          | some keys => simp
      · cases h

/-- Noting where a packet came from leaves the keys. -/
theorem sharedSecretForPeer_noteSource (n : Node) (source : ByteVec 5) (fromAddr : SocketAddr) (now : UInt64)
    (a : ByteVec 5) : (n.noteSource source fromAddr now).sharedSecretForPeer pr a = n.sharedSecretForPeer pr a := by
  unfold sharedSecretForPeer
  have hpeer : (n.noteSource source fromAddr now).topology.getPeer a =
      if a = source then (n.topology.getPeer a).map (heardFrom (n.isRelayed source fromAddr) fromAddr now)
      else n.topology.getPeer a := Topology.getPeer_modifyPeer ..
  rw [hpeer]
  split
  · cases n.topology.getPeer a with
    | none => rfl
    | some peer =>
      simp only [Option.map_some, Option.bind_some, Peer.sharedSecret_eq, Peer.keys_heardFrom,
        Peer.identity_heardFrom]
      rfl
  · rfl

/-- There still is one when the packet is dispatched. -/
theorem sharedSecret_dispatch {n : Node} {data : Bytes} {fromAddr : SocketAddr} {now : UInt64} {d : Dispatch}
    (hadmitted : n.admitPacket pr data fromAddr now = .dispatch d) (hopened : (n.dearmor pr data).isSome = true) :
    ∃ secret, d.node.sharedSecretForPeer pr (PacketHeader.read d.packet).source = some secret := by
  obtain ⟨-, -, -, hsource, -, hnode, -⟩ := admitPacket_dispatch hadmitted
  have hkey : (d.node.sharedSecretForPeer pr (PacketHeader.read d.packet).source).isSome = true := by
    rw [source_dispatch hadmitted, hsource, hnode, sharedSecretForPeer_noteSource]
    exact sharedSecret_of_dearmor hopened
  exact Option.isSome_iff_exists.mp hkey

/-- WHOIS answers are complete up to a size. An authenticated request is handled to its
end and answered in full exactly when at most 28 of the addresses it lists, each as
often as it is listed, are the node itself or a known peer. -/
theorem handleWhois_complete_iff (pr : Primitives) (n : Node) (data : Bytes) (fromAddr : SocketAddr)
    (now : UInt64) (d : Dispatch) (hadmitted : n.admitPacket pr data fromAddr now = .dispatch d)
    (hopened : (n.dearmor pr data).isSome = true) :
    (∃ n', d.node.handleWhois pr d.packet fromAddr now = .ok n' ∧
      d.node.WhoisAnswered pr d.packet fromAddr n') ↔
    ((WhoisRequest.deserialize (d.packet.drop Constants.minPacketLength)).filter fun a =>
      (d.node.knownIdentity a).isSome).length ≤ 28 := by
  obtain ⟨secret, hsecret⟩ := sharedSecret_dispatch hadmitted hopened
  have hreturns := handleWhois_returns_iff pr d.node d.packet fromAddr now
  simp only [hsecret, reduceCtorEq, or_false, whoisAnswerLimit] at hreturns
  have hcount : ∀ l : List (ByteVec 5), (l.filterMap d.node.knownIdentity).length =
      (l.filter fun a => (d.node.knownIdentity a).isSome).length := by
    intro l
    rw [List.length_filterMap_eq_countP, List.countP_eq_length_filter]
  rw [← hcount, ← hreturns]
  constructor
  · rintro ⟨n', h, -⟩
    exact ⟨n', h⟩
  · rintro ⟨n', h⟩
    exact ⟨n', h, whoisAnswered_of_handled hsecret h⟩

/-- Root number 2 asks number 1 for some addresses. -/
def sampleWhois (addresses : List (ByteVec 5)) : Call where
  before := Sample.start
  data := Sample.sentBy 2 9 .whois (WhoisRequest.serialize addresses)
  fromAddr := Sample.endpoint 20
  now := 1000
  after := Sample.start
  actions := []

/-- It asks for number 1, number 3 and an address not known. -/
theorem handleWhois_complete_three : ∃ d n', (sampleWhois [(Sample.identity 1).address.bytes,
      (Sample.identity 3).address.bytes, (Sample.identity 9).address.bytes]).dispatched Sample.primitives = some d ∧
    d.node.handleWhois Sample.primitives d.packet (Sample.endpoint 20) 1000 = .ok n' ∧
    d.node.WhoisAnswered Sample.primitives d.packet (Sample.endpoint 20) n' := by
  set c := sampleWhois [(Sample.identity 1).address.bytes, (Sample.identity 3).address.bytes,
    (Sample.identity 9).address.bytes]
  have hcheck : (c.dispatched Sample.primitives).any (fun d =>
      ((WhoisRequest.deserialize (d.packet.drop Constants.minPacketLength)).filter fun a =>
        (d.node.knownIdentity a).isSome).length ≤ 28) = true := by decide +kernel
  obtain ⟨d, hd, hfew⟩ := (Option.any_eq_true _ _).mp hcheck
  obtain ⟨n', hn', hanswered⟩ := (handleWhois_complete_iff Sample.primitives _ _ _ _ d
    (Call.dispatched_eq_some.mp hd) (by decide +kernel)).mpr (of_decide_eq_true hfew)
  exact ⟨d, n', hd, hn', hanswered⟩

/-- Number 1 is asked for its own address 29 times, and the buffer is not long enough. -/
theorem handleWhois_overflows : ¬ ∀ (pr : Primitives) (n : Node) (data : Bytes) (fromAddr : SocketAddr)
    (now : UInt64) (d : Dispatch), n.admitPacket pr data fromAddr now = .dispatch d →
    (n.dearmor pr data).isSome = true → Verb.fromByte d.verbId = some .whois →
    (n.topology.getPeer d.source).isSome = true →
    ∃ n', d.node.handleWhois pr d.packet fromAddr now = .ok n' ∧ d.node.WhoisAnswered pr d.packet fromAddr n' := by
  intro hall
  set c := sampleWhois (List.replicate 29 (Sample.identity 1).address.bytes) with hc
  have hcheck : (c.dispatched Sample.primitives).any (fun d =>
      Verb.fromByte d.verbId = some .whois ∧ (c.before.topology.getPeer d.source).isSome = true ∧
      28 < ((WhoisRequest.deserialize (d.packet.drop Constants.minPacketLength)).filterMap
        d.node.knownIdentity).length ∧
      d.node.sharedSecretForPeer Sample.primitives (PacketHeader.read d.packet).source ≠ none) = true := by
    decide +kernel
  obtain ⟨d, hd, hall'⟩ := (Option.any_eq_true _ _).mp hcheck
  obtain ⟨hverb, hpeer, hmany, hkey⟩ := of_decide_eq_true hall'
  obtain ⟨n', hn', -⟩ := hall Sample.primitives _ _ _ _ d (Call.dispatched_eq_some.mp hd) (by decide +kernel)
    hverb hpeer
  rcases (handleWhois_returns_iff Sample.primitives d.node d.packet _ _).mp ⟨n', hn'⟩ with hfew | hnone
  · exact absurd hmany (Nat.not_lt.mpr hfew)
  · exact hkey hnone

end Node

end ManyTier
