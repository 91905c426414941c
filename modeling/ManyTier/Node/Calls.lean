import ManyTier.Node.Effects

/-! What one call of `receivePacket` can do.

`receiveBody_cases` says it once: a call takes in a fragment, or receives the packet a
fragment completed, or is done when it is admitted, or runs one handler, or works
through an answer to WHOIS. `ReplayRel` is the rule for the last, which may make other
calls, and `receiveFuel_calls` says that every call on record was made so. -/
namespace ManyTier

namespace Node
variable (pr : Primitives) (recv : Receiver)

/-! ### The handler of a packet that makes no other call -/

/-- The identities of an answer to WHOIS. -/
def whoisIdentities (packet : Bytes) : Option (List Identity) :=
  match OkPayload.deserialize (packet.drop Constants.minPacketLength) with
  | .ok ⟨_, _, .whois identities⟩ => some identities
  | _ => none

/-- What a packet does that is not an answer to WHOIS. -/
def handleAlone (d : Dispatch) (fromAddr : SocketAddr) (now : UInt64) : Except Fault Node :=
  match Verb.fromByte d.verbId with
  | none => .ok d.node
  | some .ok =>
    match OkPayload.deserialize (d.packet.drop Constants.minPacketLength) with
    | .error _ => .ok d.node
    | .ok ok =>
      match ok.subPayload with
      | .hello timestampEcho _ _ _ _ _ => .ok (d.node.handleOkHello pr d.packet timestampEcho fromAddr now)
      | .whois _ => .ok d.node
      | .generic data => .ok (d.node.handleOkGeneric ok data now)
  | some verb => handleVerb pr verb d fromAddr now

theorem dispatch_cases {d : Dispatch} {fromAddr : SocketAddr} {now : UInt64} {p : Progress}
    (h : dispatch pr recv d fromAddr now = .ok p) :
    (Verb.fromByte d.verbId = some .ok ∧ ∃ identities, whoisIdentities d.packet = some identities ∧
      identities.foldlM (resolveIdentity pr recv now) ⟨d.node, []⟩ = .ok p) ∨
    (handleAlone pr d fromAddr now = .ok p.node ∧ p.calls = [] ∧
      ¬ (Verb.fromByte d.verbId = some .ok ∧ (whoisIdentities d.packet).isSome)) := by
  unfold dispatch at h
  split at h
  · rename_i hverb
    cases h
    exact .inr ⟨by rw [handleAlone, hverb], rfl, by simp [hverb]⟩
  · rename_i hverb
    unfold handleOk at h
    split at h
    · rename_i e hdes
      cases h
      exact .inr ⟨by rw [handleAlone, hverb, hdes], rfl, by simp [whoisIdentities, hdes]⟩
    · rename_i ok hdes
      obtain ⟨inReVerb, inRePacketId, sub⟩ := ok
      cases sub with
      | hello timestampEcho _ _ _ _ _ =>
        cases h
        exact .inr ⟨by rw [handleAlone, hverb, hdes], rfl, by simp [whoisIdentities, hdes]⟩
      | whois identities => exact .inl ⟨hverb, identities, by simp [whoisIdentities, hdes], h⟩
      | generic data =>
        cases h
        exact .inr ⟨by rw [handleAlone, hverb, hdes], rfl, by simp [whoisIdentities, hdes]⟩
  · rename_i verb hne hverb
    obtain ⟨n, hn, hp⟩ := bind_eq_ok h
    cases hp
    refine .inr ⟨?_, rfl, ?_⟩
    · rw [handleAlone, hverb]
      cases verb with
      | ok => exact absurd rfl hne
      | _ => exact hn
    · rintro ⟨hok, -⟩
      exact hne (Option.some.inj (hverb.symm.trans hok))

/-- Three handlers touch the peers. -/
theorem handleAlone_peers {d : Dispatch} {fromAddr : SocketAddr} {now : UInt64} {n' : Node}
    (h : handleAlone pr d fromAddr now = .ok n') :
    KeepsPeers d.node n' ∨
    (Verb.fromByte d.verbId = some .hello ∧ n' = d.node.handleHello pr d.packet fromAddr now d.packetId) ∨
    (Verb.fromByte d.verbId = some .pushDirectPaths ∧
      n' = d.node.handlePushDirectPaths pr d.packet fromAddr now) ∨
    (Verb.fromByte d.verbId = some .ok ∧
      ∃ timestampEcho, n' = d.node.handleOkHello pr d.packet timestampEcho fromAddr now) := by
  unfold handleAlone at h
  split at h
  · cases h
    exact .inl (.refl _)
  · rename_i hverb
    split at h
    · cases h
      exact .inl (.refl _)
    · split at h
      · exact .inr (.inr (.inr ⟨hverb, _, (Except.ok.inj h).symm⟩))
      · cases h
        exact .inl (.refl _)
      · cases h
        exact .inl (keepsPeers_handleOkGeneric ..)
  · rename_i verb _ hverb
    by_cases hhello : verb = .hello
    · subst hhello
      exact .inr (.inl ⟨hverb, (Except.ok.inj h).symm⟩)
    · by_cases hpush : verb = .pushDirectPaths
      · subst hpush
        exact .inr (.inr (.inl ⟨hverb, (Except.ok.inj h).symm⟩))
      · exact .inl (keepsPeers_handleVerb pr h hhello hpush)

/-- The configuration a packet brings, where the handlers take it up. -/
def configTaken (d : Dispatch) : Option NetworkConfigPayload :=
  match Verb.fromByte d.verbId with
  | some .networkConfig => configFromController d.packet
  | some .ok =>
    match OkPayload.deserialize (d.packet.drop Constants.minPacketLength) with
    | .ok ok => okConfig ok
    | .error _ => none
  | _ => none

/-- The memberships are touched by a configuration taken up, and by credentials. -/
theorem handleAlone_networks {d : Dispatch} {fromAddr : SocketAddr} {now : UInt64} {n' : Node}
    (h : handleAlone pr d fromAddr now = .ok n') :
    KeepsMemberships d.node n' ∨
    (∃ nc, configTaken d = some nc ∧ n' = d.node.applyReceivedNetworkConfig nc) ∨
    (Verb.fromByte d.verbId = some .networkCredentials ∧ n' = d.node.handleNetworkCredentials d.packet) := by
  unfold handleAlone at h
  split at h
  · cases h
    exact .inl (.refl _)
  · rename_i hverb
    split at h
    · cases h
      exact .inl (.refl _)
    · rename_i ok hok
      split at h
      · cases h
        exact .inl (keepsNetworks_modifyPeer ..).keepsMemberships
      · cases h
        exact .inl (.refl _)
      · rename_i data hsub
        cases h
        unfold handleOkGeneric
        split
        · exact .inl (keepsNetworks_handleMulticastGatherOk ..).keepsMemberships
        · split
          · rename_i nc hnc
            exact .inr (.inl ⟨nc, by simp [configTaken, hverb, hok, hnc], rfl⟩)
          · exact .inl (.refl _)
  · rename_i verb _ hverb
    by_cases hconfig : verb = .networkConfig
    · subst hconfig
      obtain rfl := Except.ok.inj h
      unfold handleNetworkConfig
      split
      · exact .inl (.refl _)
      · rename_i nc hnc
        exact .inr (.inl ⟨nc, by simp [configTaken, hverb, hnc], rfl⟩)
    · by_cases hcreds : verb = .networkCredentials
      · subst hcreds
        exact .inr (.inr ⟨hverb, (Except.ok.inj h).symm⟩)
      · exact .inl (keepsMemberships_handleVerb pr h hconfig hcreds)

/-! ### Admission -/

section
variable {pr} {n : Node} {data : Bytes} {fromAddr : SocketAddr} {now : UInt64}

/-- What is dispatched is a whole packet for this node, with its source noted: as it
came if it is of suite 0 and was not opened, else as it was opened. -/
theorem admitPacket_dispatch {d : Dispatch} (h : n.admitPacket pr data fromAddr now = .dispatch d) :
    isFragment data = false ∧ Constants.minPacketLength ≤ data.length ∧
      (PacketHeader.read data).dest = n.address ∧ d.source = (PacketHeader.read data).source ∧
      d.packetId = (PacketHeader.read data).packetId ∧
      d.node = { n with actions := [] }.noteSource (PacketHeader.read data).source fromAddr now ∧
      ((n.dearmor pr data = none ∧ (PacketHeader.read data).cipherSuite = Constants.cipherNone ∧
          d.packet = data ∧ d.verbId = (PacketHeader.read data).verb &&& 0x1f) ∨
        (∃ opened, n.dearmor pr data = some opened ∧
          ((byteAt opened 27 &&& Constants.verbFlagCompressed = 0 ∧ d.packet = opened) ∨
            (byteAt opened 27 &&& Constants.verbFlagCompressed ≠ 0 ∧
              decompressPacket pr opened = some d.packet)) ∧
          d.verbId = byteAt d.packet 27 &&& 0x1f)) := by
  unfold admitPacket at h
  simp only at h
  split at h
  · cases h
  · rename_i hfrag
    split at h
    · cases h
    · rename_i hlen
      split at h
      · cases h
      · rename_i hdest
        have hthis : (PacketHeader.read data).dest = n.address := not_not.mp hdest
        have hwhole : isFragment data = false := by simpa using hfrag
        have hlong : Constants.minPacketLength ≤ data.length := by omega
        have hdearmor : Node.dearmor pr { n with actions := [] } data = n.dearmor pr data := rfl
        rw [hdearmor] at h
        split at h
        · rename_i hnone
          split at h
          · cases h
          · rename_i hsuite
            cases h
            exact ⟨hwhole, hlong, hthis, rfl, rfl, rfl, .inl ⟨hnone, not_not.mp hsuite, rfl, rfl⟩⟩
        · rename_i opened hopened
          split at h
          · rename_i hflag
            split at h
            · cases h
            · rename_i packet hpacket
              cases h
              exact ⟨hwhole, hlong, hthis, rfl, rfl, rfl, .inr ⟨opened, hopened, .inr ⟨hflag, hpacket⟩, rfl⟩⟩
          · rename_i hflag
            cases h
            exact ⟨hwhole, hlong, hthis, rfl, rfl, rfl,
              .inr ⟨opened, hopened, .inl ⟨not_not.mp hflag, rfl⟩, rfl⟩⟩

/-- Opening a packet changes nothing in front of its verb. -/
theorem take_dearmor {opened : Bytes} (h : n.dearmor pr data = some opened) :
    opened.take 27 = data.take 27 := by
  have hsalsa : ∀ secret, (Salsa.dearmorPacket pr secret data).toOption = some opened →
      opened.take 27 = data.take 27 := by
    intro secret hopen
    unfold Salsa.dearmorPacket at hopen
    split at hopen
    · cases hopen
    · rename_i hlen
      split at hopen
      · cases hopen
      · split at hopen
        · cases hopen
          exact List.take_left' (by simp only [Salsa.packetMinLen] at hlen; simp [Salsa.packetVerbOffset]; omega)
        · cases hopen
          rfl
  have hsecret : ∀ secret : Option Secret,
      (secret.bind fun secret => (Salsa.dearmorPacket pr secret data).toOption) = some opened →
        opened.take 27 = data.take 27 := by
    intro secret hopen
    obtain ⟨key, -, hopen⟩ := Option.bind_eq_some_iff.mp hopen
    exact hsalsa key hopen
  unfold dearmor at h
  simp only at h
  split at h
  · split at h
    · cases h
    · exact hsecret _ h
  · split at h
    · exact hsecret _ h
    · split at h
      · obtain ⟨⟨k0, k1⟩, -, hopen⟩ := Option.bind_eq_some_iff.mp h
        simp only at hopen
        split at hopen
        · rename_i clear haes
          cases hopen
          unfold AesGmacSiv.dearmorPacket at haes
          split at haes
          · cases haes
          · rename_i hlen
            obtain ⟨rfl, -⟩ := Prod.mk.inj (Except.ok.inj haes)
            exact List.take_left' (by simp only [Salsa.packetMinLen] at hlen; simp [Salsa.packetVerbOffset]; omega)
        · cases hopen
      · cases h

/-- The packet a handler gets has the header of the datagram in front of its verb. -/
theorem take_dispatch {d : Dispatch} (h : n.admitPacket pr data fromAddr now = .dispatch d) :
    d.packet.take 27 = data.take 27 := by
  obtain ⟨-, -, -, -, -, -, hpacket⟩ := admitPacket_dispatch h
  rcases hpacket with ⟨-, -, hsame, -⟩ | ⟨opened, hopen, ⟨-, hsame⟩ | ⟨-, hsame⟩, -⟩
  · rw [hsame]
  · rw [hsame]
    exact take_dearmor hopen
  · rw [← take_dearmor hopen]
    unfold decompressPacket at hsame
    split at hsame
    · cases hsame
    · rename_i hlen
      obtain ⟨payload, -, hpayload⟩ := Option.map_eq_some_iff.mp hsame
      rw [← hpayload]
      exact List.take_left' (by simp only [Constants.minPacketLength] at hlen; simp; omega)

/-- The packet a handler gets names the source of the datagram. -/
theorem source_dispatch {d : Dispatch} (h : n.admitPacket pr data fromAddr now = .dispatch d) :
    (PacketHeader.read d.packet).source = d.source := by
  obtain ⟨-, -, -, hsource, -⟩ := admitPacket_dispatch h
  rw [hsource]
  show fieldAt 5 d.packet 13 = fieldAt 5 data 13
  rw [← fieldAt_take 5 d.packet 27 13 (by decide), take_dispatch h, fieldAt_take 5 data 27 13 (by decide)]

/-- It has the id of the datagram. -/
theorem packetId_dispatch {d : Dispatch} (h : n.admitPacket pr data fromAddr now = .dispatch d) :
    (PacketHeader.read d.packet).packetId = d.packetId := by
  obtain ⟨-, -, -, -, hid, -⟩ := admitPacket_dispatch h
  rw [hid]
  show ofBe64 (fieldAt 8 d.packet 0).toBytes = ofBe64 (fieldAt 8 data 0).toBytes
  rw [← fieldAt_take 8 d.packet 27 0 (by decide), take_dispatch h, fieldAt_take 8 data 27 0 (by decide)]

/-- Its hop count is that of the datagram. -/
theorem arrivedDirectly_dispatch {d : Dispatch} (h : n.admitPacket pr data fromAddr now = .dispatch d) :
    arrivedDirectly d.packet = arrivedDirectly data := by
  have hflags : byteAt d.packet 18 = byteAt data 18 := by
    rw [← byteAt_take d.packet 27 18 (by decide), take_dispatch h, byteAt_take data 27 18 (by decide)]
  show decide (byteAt d.packet 18 &&& _ = 0) = decide (byteAt data 18 &&& _ = 0)
  rw [hflags]

/-- What ends with its admission is dropped, relayed or kept for later. -/
theorem admitPacket_finished {n' : Node} (h : n.admitPacket pr data fromAddr now = .finished n') :
    isFragment data = false ∧
      (n' = { n with actions := [] } ∨ n' = { n with actions := [] }.handleRelay pr data now ∨
        n' = { n with actions := [] }.dropUnopened data fromAddr now) := by
  unfold admitPacket at h
  simp only at h
  split at h
  · cases h
  · rename_i hfrag
    refine ⟨by simpa using hfrag, ?_⟩
    split at h
    · cases h
      exact .inl rfl
    · split at h
      · cases h
        exact .inr (.inl rfl)
      · split at h
        · split at h
          · cases h
            exact .inr (.inr rfl)
          · cases h
        · split at h
          · split at h
            · cases h
              exact .inl rfl
            · cases h
          · cases h

theorem admitPacket_fragment (h : n.admitPacket pr data fromAddr now = .fragment) : isFragment data = true := by
  unfold admitPacket at h
  simp only at h
  split at h
  · assumption
  · split at h
    · cases h
    · split at h
      · cases h
      · split at h
        · split at h <;> cases h
        · split at h
          · split at h <;> cases h
          · cases h

end

/-! ### Packets that a peer sealed -/

section
variable {pr} {b : Node} {secret : Secret} {packetId : UInt64} {source : ByteVec 5} {payload sealed : Bytes}

/-- The bytes in front of the MAC of a sealed packet are those it was sealed with. -/
theorem read_sealed {dest : ByteVec 5} {flags verb : UInt8}
    (htake : sealed.take 19 = (plainHeader packetId dest source flags verb ++ payload).take 19) :
    (PacketHeader.read sealed).dest = dest ∧ (PacketHeader.read sealed).source = source ∧
      (PacketHeader.read sealed).flags = flags ∧ (PacketHeader.read sealed).packetId = packetId := by
  set packet := plainHeader packetId dest source flags verb ++ payload with hpacket
  have hread : PacketHeader.read packet = _ := read_plainHeader packetId dest source flags verb payload
  have hfield : ∀ n off, off + n ≤ 19 → fieldAt n sealed off = fieldAt n packet off := by
    intro n off hn
    rw [← fieldAt_take n sealed 19 off hn, htake, fieldAt_take n packet 19 off hn]
  refine ⟨?_, ?_, ?_, ?_⟩
  · exact (hfield 5 8 (by decide)).trans (congrArg PacketHeader.dest hread)
  · exact (hfield 5 13 (by decide)).trans (congrArg PacketHeader.source hread)
  · show byteAt sealed 18 = flags
    rw [← byteAt_take sealed 19 18 (by decide), htake, byteAt_take _ _ _ (by decide)]
    exact congrArg PacketHeader.flags hread
  · show ofBe64 (fieldAt 8 sealed 0).toBytes = packetId
    rw [hfield 8 0 (by decide), show fieldAt 8 packet 0 = _ from congrArg PacketHeader.iv hread]
    exact ofBe64_fieldAt_be64 packetId

/-- A packet that a peer sealed for us opens under the secret we hold for it. -/
theorem dearmor_sealed {verb : Verb}
    (hsealed : Salsa.armorPacket pr secret (encryptedVerbPacket packetId source b.address verb payload) true = .ok sealed)
    (hsecret : b.sharedSecretForPeer pr source = some secret) :
    sealed.length = 28 + payload.length ∧
      sealed.take 19 = (plainHeader packetId b.address source encryptedFlags verb.toByte ++ payload).take 19 ∧
      ∃ mac, b.dearmor pr sealed = some (PacketHeader.toBytes
        ⟨fieldAt 8 (be64 packetId) 0, b.address, source, encryptedFlags, mac, verb.toByte⟩ ++ payload) := by
  obtain ⟨sealed', mac, harmor, hlength, htake, hopen⟩ :=
    dearmor_encrypted pr secret packetId b.address source verb.toByte payload
  obtain rfl : sealed' = sealed := Except.ok.inj (harmor.symm.trans hsealed)
  obtain ⟨-, hsrc, hflags, -⟩ := read_sealed htake
  have hsuite : (PacketHeader.read sealed').cipherSuite = Constants.cipherSalsa2012 := by
    rw [PacketHeader.cipherSuite, hflags]
    decide
  refine ⟨by simpa using hlength, htake, mac, ?_⟩
  unfold dearmor
  simp only [hsuite, hsrc, hsecret, hopen, Option.bind_some, Except.toOption]
  rfl

/-- It is dispatched with its verb and its payload. -/
theorem admitPacket_sealed {verb : Verb}
    (hsealed : Salsa.armorPacket pr secret (encryptedVerbPacket packetId source b.address verb payload) true = .ok sealed)
    (hsecret : b.sharedSecretForPeer pr source = some secret) (hsource : byteAt source.toBytes 0 ≠ 0xff)
    (fromAddr : SocketAddr) (now : UInt64) :
    ∃ d, b.admitPacket pr sealed fromAddr now = .dispatch d ∧ Verb.fromByte d.verbId = some verb ∧
      d.node = noteSource { b with actions := [] } source fromAddr now ∧ d.source = source ∧
      d.packet.drop Constants.minPacketLength = payload := by
  obtain ⟨hlength, htake, mac, hdearmor⟩ := dearmor_sealed hsealed hsecret
  obtain ⟨hdest, hsrc, -, hid⟩ := read_sealed htake
  set opened := PacketHeader.toBytes ⟨fieldAt 8 (be64 packetId) 0, b.address, source, encryptedFlags, mac,
    verb.toByte⟩ ++ payload with hopened
  have hverb : byteAt opened 27 = verb.toByte := congrArg PacketHeader.verb (PacketHeader.read_toBytes _ _)
  have hplain : verb.toByte &&& Constants.verbFlagCompressed = 0 := by cases verb <;> decide
  have hkind : Verb.fromByte (verb.toByte &&& 0x1f) = some verb := by cases verb <;> decide
  have hnotFragment : isFragment sealed = false := by
    have hfirst : byteAt sealed 13 = byteAt source.toBytes 0 := by
      rw [← hsrc]
      exact (byteAt_fieldAt sealed 13 0 (by decide)).symm
    simp [isFragment, hfirst, Constants.fragmentIndicator, hsource]
  have hlong : ¬ sealed.length < Constants.minPacketLength := by
    rw [hlength]
    simp [Constants.minPacketLength]
  have hclear : Node.dearmor pr { b with actions := [] } sealed = b.dearmor pr sealed := rfl
  refine ⟨{ node := noteSource { b with actions := [] } source fromAddr now, packet := opened
            verbId := verb.toByte &&& 0x1f, source, packetId }, ?_, hkind, rfl, rfl, ?_⟩
  · unfold admitPacket
    simp only [hnotFragment, Bool.false_eq_true, if_false, if_neg hlong, hdest]
    rw [if_neg (show ¬ (b.address ≠ Node.address { b with actions := [] }) from fun h => h rfl), hclear, hdearmor]
    simp only [hverb, hplain, ne_eq, not_true_eq_false, if_false, handOn, hsrc, hid]
  · exact List.drop_left' (by simp [Constants.minPacketLength])

end

/-! ### One call -/

/-- What a call can do: take in a fragment, receive the packet a fragment completed,
end where it is admitted, or dispatch. -/
theorem receiveBody_cases {n : Node} {data : Bytes} {fromAddr : SocketAddr} {now : UInt64} {p : Progress}
    (h : receiveBody pr recv n data fromAddr now = .ok p) :
    (isFragment data = true ∧ p.calls = [] ∧
      (p.node = { n with actions := [] } ∨
        (Constants.minFragmentLength < data.length ∧ (n.reassembly.insertPiece data now).2 = none ∧
          p.node = { n with actions := [], reassembly := (n.reassembly.insertPiece data now).1 }))) ∨
    (isFragment data = true ∧ Constants.minFragmentLength < data.length ∧
      ∃ packet r, (n.reassembly.insertPiece data now).2 = some packet ∧
        recv { n with actions := [], reassembly := (n.reassembly.insertPiece data now).1 } packet fromAddr
          now = .ok r ∧
        p = ⟨{ r.node with actions := r.node.actions ++ r.actions }, r.calls⟩) ∨
    (∃ n', n.admitPacket pr data fromAddr now = .finished n' ∧ p = ⟨n', []⟩) ∨
    (∃ d, n.admitPacket pr data fromAddr now = .dispatch d ∧ dispatch pr recv d fromAddr now = .ok p) := by
  unfold receiveBody at h
  split at h
  · rename_i hadmitted
    have hfrag := admitPacket_fragment hadmitted
    unfold handleFragment at h
    split at h
    · cases h
      exact .inl ⟨hfrag, rfl, .inl rfl⟩
    · rename_i hlen
      simp only at h
      split at h
      · rename_i hnone
        cases h
        exact .inl ⟨hfrag, rfl, .inr ⟨by omega, hnone, rfl⟩⟩
      · rename_i packet hsome
        obtain ⟨r, hr, hp⟩ := bind_eq_ok h
        cases hp
        exact .inr (.inl ⟨hfrag, by omega, packet, r, hsome, hr, rfl⟩)
  · rename_i n' hadmitted
    cases h
    exact .inr (.inr (.inl ⟨n', hadmitted, rfl⟩))
  · rename_i d hadmitted
    exact .inr (.inr (.inr ⟨d, hadmitted, h⟩))

/-! ### The answer to WHOIS -/

/-- A relation that learning an identity, taking a waiting packet up and receiving it
respect. -/
structure ReplayRel (now : UInt64) (R : Progress → Progress → Prop) : Prop where
  refl : ∀ p, R p p
  trans : ∀ p q r, R p q → R q r → R p r
  learn : ∀ p identity, R p { p with node := p.node.learnIdentity pr identity now }
  take : ∀ p source, R p { p with node := { p.node with
    pendingEncryptedPackets := p.node.pendingEncryptedPackets.filter (·.source ≠ source) } }
  replay : ∀ p packet p', replayOne recv now p packet = .ok p' → R p p'

variable {pr recv}

theorem ReplayRel.resolve {now : UInt64} {R : Progress → Progress → Prop} (hR : ReplayRel pr recv now R)
    {identities : List Identity} {p p' : Progress}
    (h : identities.foldlM (resolveIdentity pr recv now) p = .ok p') : R p p' := by
  refine foldlM_rel R hR.refl hR.trans ?_ h
  intro identity _ q q' hq
  unfold resolveIdentity at hq
  split at hq
  · cases hq
    exact hR.refl q
  · refine hR.trans _ _ _ (hR.learn q identity) ?_
    unfold replayPendingEncryptedPacketsFor at hq
    refine hR.trans _ _ _ (hR.take _ identity.address.bytes) ?_
    exact foldlM_rel R hR.refl hR.trans (fun packet _ b b' hb => hR.replay b packet b' hb) hq

end Node

/-! ### Calls on record -/

namespace Call
variable (pr : Primitives) (c : Call)

/-- The call is what a body did with what it was given. -/
def Made : Prop :=
  ∃ recv p, Node.receiveBody pr recv c.before c.data c.fromAddr c.now = .ok p ∧
    c.after = { p.node with actions := [] } ∧ c.actions = p.node.actions

/-- The packet a call handed to a handler. -/
def dispatched : Option Dispatch :=
  match c.before.admitPacket pr c.data c.fromAddr c.now with
  | .dispatch d => some d
  | _ => none

/-- The verb that was handled. -/
def verb : Option Verb := (c.dispatched pr).bind fun d => Verb.fromByte d.verbId

variable {pr c}

theorem dispatched_eq_some {d : Dispatch} :
    c.dispatched pr = some d ↔ c.before.admitPacket pr c.data c.fromAddr c.now = .dispatch d := by
  unfold dispatched
  split
  · rename_i d' hd
    rw [hd]
    simp
  · rename_i hno
    constructor
    · intro h
      cases h
    · intro h
      exact absurd h (hno d)

/-- The node a packet is dispatched with has the source noted and is otherwise the same. -/
theorem dispatched_node {d : Dispatch} (hd : c.dispatched pr = some d) :
    d.node = Node.noteSource { c.before with actions := [] } (PacketHeader.read c.data).source c.fromAddr
      c.now := by
  obtain ⟨-, -, -, -, -, hnode, -⟩ := Node.admitPacket_dispatch (dispatched_eq_some.mp hd)
  exact hnode

end Call

namespace Node
variable {pr : Primitives} {recv : Receiver}

/-- What holds of the calls a receiver makes holds of the calls inside a body. -/
theorem receiveBody_calls {P : Call → Prop}
    (hrecv : ∀ n data fromAddr now r, recv n data fromAddr now = .ok r → ∀ c ∈ r.calls, P c)
    {n : Node} {data : Bytes} {fromAddr : SocketAddr} {now : UInt64} {p : Progress}
    (h : receiveBody pr recv n data fromAddr now = .ok p) : ∀ c ∈ p.calls, P c := by
  have hrel : ReplayRel pr recv now fun p p' => (∀ c ∈ p.calls, P c) → ∀ c ∈ p'.calls, P c := by
    refine ⟨fun _ h => h, fun _ _ _ h h' hp => h' (h hp), fun _ _ h => h, fun _ _ h => h, ?_⟩
    intro q packet q' hq hcalls c hc
    obtain ⟨r, hr, hq'⟩ := bind_eq_ok hq
    cases hq'
    rcases List.mem_append.mp hc with hc | hc
    · exact hcalls c hc
    · exact hrecv _ _ _ _ r hr c hc
  rcases receiveBody_cases pr recv h with ⟨-, hnil, -⟩ | ⟨-, -, packet, r, -, hr, rfl⟩ |
    ⟨n', -, rfl⟩ | ⟨d, -, hd⟩
  · simp [hnil]
  · exact hrecv _ _ _ _ r hr
  · simp
  · rcases dispatch_cases pr recv hd with ⟨-, identities, -, hfold⟩ | ⟨-, hnil, -⟩
    · exact hrel.resolve hfold (by simp)
    · simp [hnil]

/-- Every call on record was made. -/
theorem receiveFuel_calls {fuel : Nat} {n : Node} {data : Bytes} {fromAddr : SocketAddr} {now : UInt64}
    {r : Received} (h : receiveFuel pr fuel n data fromAddr now = .ok r) :
    ∀ c ∈ r.calls, c.Made pr := by
  induction fuel generalizing n data fromAddr now r with
  | zero => cases h
  | succ fuel ih =>
    obtain ⟨p, hp, hr⟩ := bind_eq_ok h
    cases hr
    intro c hc
    rcases List.mem_cons.mp hc with rfl | hc
    · exact ⟨_, p, hp, rfl, rfl⟩
    · exact receiveBody_calls (fun _ _ _ _ _ => ih) hp c hc

/-! ### Invariants -/

/-- What a property of nodes needs, to be an invariant of calls that meet a condition:
it says nothing of actions and of what is held back, and it survives admission, a
handler and an identity learned. -/
structure CallInvariant (pr : Primitives) (Cond : Call → Prop) (Inv : Node → Prop) : Prop where
  frame : ∀ (n : Node) actions reassembly pending, Inv n →
    Inv { n with actions := actions, reassembly := reassembly, pendingEncryptedPackets := pending }
  finished : ∀ n data fromAddr now n', n.admitPacket pr data fromAddr now = .finished n' → Inv n → Inv n'
  alone : ∀ c d n', Cond c → c.dispatched pr = some d → handleAlone pr d c.fromAddr c.now = .ok n' →
    Inv c.before → Inv n'
  noted : ∀ c d, Cond c → c.dispatched pr = some d → Verb.fromByte d.verbId = some .ok →
    (whoisIdentities d.packet).isSome → Inv c.before → Inv d.node
  learned : ∀ n identity now, Inv n → Inv (n.learnIdentity pr identity now)

variable {Cond : Call → Prop} {Inv : Node → Prop}

/-- An answer to WHOIS keeps the invariant if the calls it makes do. -/
theorem CallInvariant.resolve (hinv : CallInvariant pr Cond Inv)
    (hrecv : ∀ n data fromAddr now r, recv n data fromAddr now = .ok r → (∀ c ∈ r.calls, Cond c) →
      Inv n → Inv r.node ∧ ∀ c ∈ r.calls, Inv c.before)
    {identities : List Identity} {now : UInt64} {n : Node} {p : Progress}
    (h : identities.foldlM (resolveIdentity pr recv now) ⟨n, []⟩ = .ok p)
    (hcond : ∀ c ∈ p.calls, Cond c) (hn : Inv n) : Inv p.node ∧ ∀ c ∈ p.calls, Inv c.before := by
  -- Calls are only added, so a condition on all of them is one on those made so far.
  let R (p p' : Progress) : Prop := (∀ c ∈ p.calls, c ∈ p'.calls) ∧
    ((∀ c ∈ p'.calls, Cond c) → (Inv p.node ∧ ∀ c ∈ p.calls, Inv c.before) →
      Inv p'.node ∧ ∀ c ∈ p'.calls, Inv c.before)
  have hrel : ReplayRel pr recv now R := by
    refine ⟨fun _ => ⟨fun _ h => h, fun _ h => h⟩, ?_, ?_, ?_, ?_⟩
    · intro p q r hpq hqr
      refine ⟨fun c hc => hqr.1 c (hpq.1 c hc), fun hall hp => ?_⟩
      exact hqr.2 hall (hpq.2 (fun c hc => hall c (hqr.1 c hc)) hp)
    · intro p identity
      exact ⟨fun _ h => h, fun _ h => ⟨hinv.learned _ _ _ h.1, h.2⟩⟩
    · intro p source
      exact ⟨fun _ h => h, fun _ h => ⟨hinv.frame p.node _ _ _ h.1, h.2⟩⟩
    · intro p packet p' hp'
      obtain ⟨r, hr, heq⟩ := bind_eq_ok hp'
      cases heq
      refine ⟨fun c hc => List.mem_append_left _ hc, fun hall hp => ?_⟩
      obtain ⟨hnode, hbefore⟩ := hrecv _ _ _ _ _ hr (fun c hc => hall c (List.mem_append_right _ hc))
        (hinv.frame p.node _ _ _ hp.1)
      refine ⟨hinv.frame r.node _ _ _ hnode, ?_⟩
      intro c hc
      rcases List.mem_append.mp hc with hc | hc
      · exact hp.2 c hc
      · exact hbefore c hc
  exact (hrel.resolve h).2 hcond ⟨hn, by simp⟩

/-- Calls that meet the condition keep the invariant, and it holds before each. -/
theorem CallInvariant.receiveFuel (hinv : CallInvariant pr Cond Inv) {fuel : Nat} {n : Node} {data : Bytes}
    {fromAddr : SocketAddr} {now : UInt64} {r : Received}
    (h : Node.receiveFuel pr fuel n data fromAddr now = .ok r) (hcond : ∀ c ∈ r.calls, Cond c)
    (hn : Inv n) : Inv r.node ∧ ∀ c ∈ r.calls, Inv c.before := by
  induction fuel generalizing n data fromAddr now r with
  | zero => cases h
  | succ fuel ih =>
    obtain ⟨p, hp, hr⟩ := bind_eq_ok h
    cases hr
    obtain ⟨hthis, hcalls⟩ := List.forall_mem_cons.mp hcond
    set c : Call := ⟨n, data, fromAddr, now, { p.node with actions := [] }, p.node.actions⟩
    suffices hsuff : Inv p.node ∧ ∀ c ∈ p.calls, Inv c.before by
      exact ⟨hinv.frame p.node _ _ _ hsuff.1, List.forall_mem_cons.mpr ⟨hn, hsuff.2⟩⟩
    rcases receiveBody_cases pr _ hp with ⟨-, hnil, hnode⟩ | ⟨-, -, packet, r, -, hr, rfl⟩ |
      ⟨n', hadmitted, rfl⟩ | ⟨d, hadmitted, hd⟩
    · refine ⟨?_, by simp [hnil]⟩
      rcases hnode with hnode | ⟨-, -, hnode⟩
      · rw [hnode]
        exact hinv.frame n _ _ _ hn
      · rw [hnode]
        exact hinv.frame n _ _ _ hn
    · obtain ⟨hnode, hbefore⟩ := ih hr hcalls (hinv.frame n _ _ _ hn)
      exact ⟨hinv.frame r.node _ _ _ hnode, hbefore⟩
    · exact ⟨hinv.finished _ _ _ _ _ hadmitted hn, by simp⟩
    · have hd' : c.dispatched pr = some d := Call.dispatched_eq_some.mpr hadmitted
      rcases dispatch_cases pr _ hd with ⟨hverb, identities, hids, hfold⟩ | ⟨hnode, hnil, -⟩
      · have hnoted := hinv.noted c d hthis hd' hverb (by simp [hids]) hn
        exact hinv.resolve (fun _ _ _ _ _ => ih) hfold hcalls hnoted
      · exact ⟨hinv.alone c d _ hthis hd' hnode hn, by simp [hnil]⟩

/-- A property that looks at the identity, the configurations and the assemblies only is an
invariant of calls if it survives a configuration taken up and credentials. -/
theorem CallInvariant.of_configs (hkeeps : ∀ n n', KeepsConfigs n n' → Inv n → Inv n')
    (hconfig : ∀ c d nc, Cond c → c.dispatched pr = some d → configTaken d = some nc → Inv d.node →
      Inv (d.node.applyReceivedNetworkConfig nc))
    (hcredentials : ∀ c d, Cond c → c.dispatched pr = some d →
      Verb.fromByte d.verbId = some .networkCredentials → Inv d.node →
      Inv (d.node.handleNetworkCredentials d.packet)) : CallInvariant pr Cond Inv := by
  have hnoted : ∀ (c : Call) d, c.dispatched pr = some d → Inv c.before → Inv d.node := by
    intro c d hd h
    rw [Call.dispatched_node hd]
    exact hkeeps c.before _ ⟨rfl, rfl, rfl⟩ h
  refine ⟨fun n _ _ _ h => hkeeps n _ ⟨rfl, rfl, rfl⟩ h, ?_, ?_, fun c d _ hd _ _ h => hnoted c d hd h, ?_⟩
  · intro n data fromAddr now n' hadmitted h
    have hclear : Inv { n with actions := [] } := hkeeps n _ ⟨rfl, rfl, rfl⟩ h
    obtain ⟨-, rfl | rfl | rfl⟩ := admitPacket_finished hadmitted
    · exact hclear
    · exact hkeeps _ _ (onlySends_handleRelay pr _ ..).keepsConfigs hclear
    · unfold dropUnopened
      simp only
      split
      · exact hkeeps { n with actions := [] } _ ⟨rfl, rfl, rfl⟩ hclear
      · exact hclear
  · intro c d n' hcond hd halone h
    rcases handleAlone_networks pr halone with hkept | ⟨nc, htaken, rfl⟩ | ⟨hverb, rfl⟩
    · exact hkeeps _ _ hkept.keepsConfigs (hnoted c d hd h)
    · exact hconfig c d nc hcond hd htaken (hnoted c d hd h)
    · exact hcredentials c d hcond hd hverb (hnoted c d hd h)
  · exact fun n identity now h => hkeeps _ _ (keepsNetworks_learnIdentity pr n identity now).keepsConfigs h

/-! ### What holds of every membership -/

/-- Something that holds of every membership of a node. -/
def Each (P : NetworkMembership → Prop) (n : Node) : Prop := ∀ net ∈ n.networks, P net

namespace Each
variable {P : NetworkMembership → Prop} {n n' : Node} (h : n.Each P)
include h

theorem keepsConfigs (hP : ∀ net net' : NetworkMembership, net.config = net'.config → P net → P net')
    (hk : KeepsConfigs n n') : n'.Each P := by
  intro net hnet
  have hmem : net.config ∈ n'.networks.map NetworkMembership.config := List.mem_map_of_mem hnet
  rw [hk.configs] at hmem
  obtain ⟨old, hold, heq⟩ := List.mem_map.mp hmem
  exact hP old net heq (h old hold)

theorem modifyNetwork (networkId : UInt64) {f : NetworkMembership → NetworkMembership}
    (hf : ∀ net, n.findNetwork networkId = some net → P net → P (f net)) : (n.modifyNetwork networkId f).Each P := by
  intro net hnet
  rcases mem_modifyFirst hnet with hold | ⟨old, hold, rfl⟩
  · exact h net hold
  · exact hf old hold (h old (List.mem_of_find?_eq_some hold))

/-- A configuration taken up keeps what the dictionary of it keeps. -/
theorem applyReceived (hP : ∀ net net' : NetworkMembership, net.config = net'.config → P net → P net')
    (nc : NetworkConfigPayload)
    (hwhole : ∀ whole net, (n.findNetwork nc.networkId).isSome →
      (assembleNetworkConfig n.pendingNetworkConfigs nc).2 = some whole → net.networkId = whole.networkId →
      P net → P (net.applyDictionary n.address whole.dictData)) :
    (n.applyReceivedNetworkConfig nc).Each P := by
  unfold applyReceivedNetworkConfig
  split
  · exact h
  · rename_i hjoined
    have hpending : Each P { n with pendingNetworkConfigs := (assembleNetworkConfig n.pendingNetworkConfigs nc).1 } := h
    simp only
    split
    · exact hpending
    · rename_i whole hassembled
      have happlied := hpending.modifyNetwork whole.networkId
        (f := fun net => net.applyDictionary n.address whole.dictData) fun net hnet hold => by
          refine hwhole whole net (Option.isSome_iff_ne_none.mpr (by simpa using hjoined)) hassembled ?_ hold
          simpa using List.find?_some hnet
      have hdone := happlied.modifyNetwork whole.networkId
        (f := fun net => { net with pendingConfigRequest := false }) fun net _ hold => hP net _ rfl hold
      exact hdone.keepsConfigs hP (onlySends_pushAction _ rfl).keepsConfigs

end Each

end Node

end ManyTier
