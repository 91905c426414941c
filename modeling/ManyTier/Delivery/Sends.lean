import ManyTier.Delivery.Handshake
import ManyTier.Security.Outbound

/-! Where the datagrams of a node come from.

Whatever a node queues for the transport is a packet of its history, sealed and whole or
in pieces, or a packet for another node that is passed on. `Sends` says so of one step of
an operation; it composes, and every operation of the node has it. -/
namespace ManyTier

/-! ### The history -/

/-- What a node says of itself: no frame, and nothing that a controller grants. -/
def Verb.Ordinary : Verb → Bytes → Prop
  | .frame, _ | .extFrame, _ | .multicastFrame, _ => False
  | .networkConfig, _ | .networkCredentials, _ => False
  | .ok, payload => Verb.fromByte (byteAt payload 0) ≠ some .networkConfigRequest
  | _, _ => True

/-- An answer is ordinary if it is not one to a configuration request. -/
theorem Verb.ordinary_ok {verb : Verb} (h : verb ≠ .networkConfigRequest) (packetId : UInt64) (sub : OkSubPayload) :
    Verb.Ordinary .ok (OkPayload.serialize ⟨verb, packetId, sub⟩) := by
  show Verb.fromByte verb.toByte ≠ _
  rw [Verb.fromByte_toByte]
  exact fun heq => h (Option.some.inj heq)

/-- A packet as it is built for the armor: it names its node as the source, it is to be
encrypted if its suite says so, and what it says is ordinary or was given to the node. -/
structure Drafted (ours : ByteVec 5) (given : Bytes → Prop) (packet : Bytes) (encrypt : Bool) : Prop where
  source : (PacketHeader.read packet).source = ours
  suite : Salsa.cipherSuite packet = if encrypt then 1 else 0
  content : (∃ verb, (PacketHeader.read packet).verb = Verb.toByte verb ∧
    verb.Ordinary (packet.drop Constants.minPacketLength)) ∨ given packet

theorem Drafted.mono {ours : ByteVec 5} {given given' : Bytes → Prop} {packet : Bytes} {encrypt : Bool}
    (h : Drafted ours given packet encrypt) (hsub : ∀ packet, given packet → given' packet) :
    Drafted ours given' packet encrypt :=
  ⟨h.source, h.suite, h.content.imp_right (hsub packet)⟩

namespace Armored
variable (pr : Primitives)

/-- The node a packet is from. -/
def source (a : Armored) : ByteVec 5 := (PacketHeader.read a.packet).source

/-- The packet as it is sent, encrypted if its suite says so. -/
def Seals (a : Armored) (sealed : Bytes) : Prop :=
  ∃ encrypt, (Salsa.cipherSuite a.packet = if encrypt then 1 else 0) ∧
    Salsa.armorPacket pr a.secret a.packet encrypt = .ok sealed

/-- The datagram is the packet as it is sent, or a piece of it. -/
def Carries (a : Armored) (data : Bytes) : Prop :=
  ∃ sealed, a.Seals pr sealed ∧
    (data = sealed ∨ ∃ mtu pieces, fragmentPacket sealed mtu = some pieces ∧ data ∈ pieces)

end Armored

/-- The datagram is some packet of a history. -/
def Recorded (pr : Primitives) (history : List Armored) (data : Bytes) : Prop := ∃ a ∈ history, a.Carries pr data

theorem Recorded.mono {pr : Primitives} {history history' : List Armored} {data : Bytes}
    (h : Recorded pr history data) (hsub : ∀ a ∈ history, a ∈ history') : Recorded pr history' data := by
  obtain ⟨a, ha, hcarries⟩ := h
  exact ⟨a, hsub a ha, hcarries⟩

/-- From one node to the next only packets from us are sealed, the history is kept, and
every datagram queued on the way is of the history or one that may be passed on. -/
structure Sends (pr : Primitives) (passed given : Bytes → Prop) (n n' : Node) : Prop where
  identity : n'.identity = n.identity
  kept : ∀ a ∈ n.armored, a ∈ n'.armored
  own : ∀ a ∈ n'.armored, a ∈ n.armored ∨ ∃ encrypt, Drafted n.address given a.packet encrypt
  queued : ∀ data address, .sendTo data address ∈ n'.actions →
    .sendTo data address ∈ n.actions ∨ Recorded pr n'.armored data ∨ passed data

namespace Sends
variable {pr : Primitives} {passed passed' given : Bytes → Prop} {a b c : Node}

theorem refl (n : Node) : Sends pr passed given n n := ⟨rfl, fun _ h => h, fun _ h => .inl h, fun _ _ h => .inl h⟩

/-- Nothing is sealed and no datagram is queued. -/
theorem of_quiet (hid : b.identity = a.identity) (harmored : b.armored = a.armored)
    (hactions : ∀ data address, .sendTo data address ∈ b.actions → .sendTo data address ∈ a.actions) :
    Sends pr passed given a b :=
  ⟨hid, fun x h => by rw [harmored]; exact h, fun x h => by rw [harmored] at h; exact .inl h,
    fun data address h => .inl (hactions data address h)⟩

theorem address (h : Sends pr passed given a b) : b.address = a.address := congrArg (·.address.bytes) h.identity

theorem trans (h : Sends pr passed given a b) (h' : Sends pr passed given b c) : Sends pr passed given a c := by
  refine ⟨h'.identity.trans h.identity, fun x hx => h'.kept x (h.kept x hx), ?_, ?_⟩
  · intro x hx
    rcases h'.own x hx with hx | hx
    · exact h.own x hx
    · rw [h.address] at hx
      exact .inr hx
  · intro data address hmem
    rcases h'.queued data address hmem with hmem | hother
    · rcases h.queued data address hmem with hmem | hrecorded | hpassed
      · exact .inl hmem
      · exact .inr (.inl (hrecorded.mono h'.kept))
      · exact .inr (.inr hpassed)
    · exact .inr hother

theorem mono (h : Sends pr passed given a b) (hsub : ∀ data, passed data → passed' data) : Sends pr passed' given a b := by
  refine ⟨h.identity, h.kept, h.own, fun data address hmem => ?_⟩
  rcases h.queued data address hmem with hmem | hrecorded | hpassed
  · exact .inl hmem
  · exact .inr (.inl hrecorded)
  · exact .inr (.inr (hsub data hpassed))

theorem foldl {α : Type} (f : Node → α → Node) (hf : ∀ n x, Sends pr passed given n (f n x)) (l : List α) (n : Node) :
    Sends pr passed given n (l.foldl f n) := by
  induction l generalizing n with
  | nil => exact refl n
  | cons x rest ih => exact (hf n x).trans (ih _)

end Sends

namespace Node
variable (pr : Primitives) {passed given : Bytes → Prop} (n : Node)

/-! ### The small operations -/

theorem sends_pushAction {a : NodeAction} (h : ∀ data address, a ≠ .sendTo data address) :
    Sends pr passed given n (n.pushAction a) := by
  refine .of_quiet rfl rfl fun data address hmem => ?_
  rcases List.mem_append.mp hmem with hmem | hmem
  · exact hmem
  · exact absurd (List.mem_singleton.mp hmem).symm (h data address)

theorem sends_allocatePacketId : Sends pr passed given n n.allocatePacketId.2 := .of_quiet rfl rfl fun _ _ h => h

theorem sends_modifyPeer (address : ByteVec 5) (f : Peer → Peer) : Sends pr passed given n (n.modifyPeer address f) :=
  .of_quiet rfl rfl fun _ _ h => h

theorem sends_modifyNetwork (networkId : UInt64) (f : NetworkMembership → NetworkMembership) :
    Sends pr passed given n (n.modifyNetwork networkId f) :=
  .of_quiet rfl rfl fun _ _ h => h

/-- A packet built for the armor. -/
theorem sends_sendArmored {secret : Secret} {packet : Bytes} {encrypt : Bool} {address : SocketAddr}
    (hdrafted : Drafted n.address given packet encrypt) :
    Sends pr passed given n (n.sendArmored pr secret packet encrypt address) := by
  unfold sendArmored
  split
  · rename_i sealed harmor
    refine ⟨rfl, fun a ha => List.mem_append_left _ ha, ?_, ?_⟩
    · intro a ha
      rcases List.mem_append.mp ha with ha | ha
      · exact .inl ha
      · rw [List.mem_singleton.mp ha]
        exact .inr ⟨encrypt, hdrafted⟩
    · intro data target hmem
      rcases List.mem_append.mp hmem with hmem | hmem
      · exact .inl hmem
      · obtain ⟨rfl, rfl⟩ := NodeAction.sendTo.inj (List.mem_singleton.mp hmem)
        exact .inr (.inl ⟨⟨secret, packet⟩, List.mem_append_right _ List.mem_cons_self, data,
          ⟨encrypt, hdrafted.suite, harmor⟩, .inl rfl⟩)
  · exact .refl n

/-- A packet of suite 1 behind a plain header. -/
theorem drafted_flagged {packetId : UInt64} {ours dest : ByteVec 5} {flags verbByte : UInt8}
    (hsalsa : (flags >>> 3) &&& 0x07 = Constants.cipherSalsa2012) {payload : Bytes}
    (hcontent : (∃ verb, verbByte = Verb.toByte verb ∧ verb.Ordinary payload) ∨
      given (plainHeader packetId dest ours flags verbByte ++ payload)) :
    Drafted ours given (plainHeader packetId dest ours flags verbByte ++ payload) true := by
  have hread := read_plainHeader packetId dest ours flags verbByte payload
  have hflags : byteAt (plainHeader packetId dest ours flags verbByte ++ payload) 18 = flags :=
    congrArg PacketHeader.flags hread
  have hpayload : (plainHeader packetId dest ours flags verbByte ++ payload).drop Constants.minPacketLength = payload :=
    List.drop_left' (length_plainHeader packetId dest ours flags verbByte)
  refine ⟨by rw [hread], ?_, by rw [hread, hpayload]; exact hcontent⟩
  rw [Salsa.cipherSuite, Salsa.packetFlagsOffset, hflags]
  exact hsalsa

theorem drafted_encryptedVerbPacket {packetId : UInt64} {ours dest : ByteVec 5} {verb : Verb} {payload : Bytes}
    (hcontent : verb.Ordinary payload ∨ given (encryptedVerbPacket packetId ours dest verb payload)) :
    Drafted ours given (encryptedVerbPacket packetId ours dest verb payload) true :=
  drafted_flagged (by decide) (hcontent.imp_left fun hordinary => ⟨verb, rfl, hordinary⟩)

theorem sends_sendEncrypted {verb : Verb} {payload : Bytes} (hordinary : verb.Ordinary payload) (dest : ByteVec 5)
    (secret : Secret) (address : SocketAddr) :
    Sends pr passed given n (n.sendEncrypted pr dest verb payload secret address) :=
  (sends_allocatePacketId pr n).trans (sends_sendArmored pr _ (drafted_encryptedVerbPacket (.inl hordinary)))

/-- The one field of a HELLO that is encrypted lies behind its header. -/
theorem drafted_buildHello {ourIdentity : Identity} {dest : ByteVec 5} {target : SocketAddr} {now : UInt64}
    {secret : Secret} {planetWorldId planetWorldTimestamp : UInt64} {packet : Bytes}
    (h : RootManager.buildHello pr ourIdentity dest target now secret planetWorldId planetWorldTimestamp = .ok packet) :
    Drafted ourIdentity.address.bytes given packet false := by
  set header := plainHeader now dest ourIdentity.address.bytes (Constants.cipherNone <<< 3) Verb.hello.toByte with hheader
  set payload := (RootManager.helloPayload ourIdentity target now planetWorldId planetWorldTimestamp).serialize
  obtain ⟨count, -, hcrypt⟩ := cryptPacketField_eq pr secret (header ++ payload) (be16 0) [0x00, 0x00]
    (by simp [hheader, Salsa.packetMinLen])
  obtain rfl : header ++ payload ++ (count ++ [0x00, 0x00]) = packet := Except.ok.inj (hcrypt.symm.trans h)
  rw [List.append_assoc, hheader]
  have hread := read_plainHeader now dest ourIdentity.address.bytes (Constants.cipherNone <<< 3) Verb.hello.toByte
    (payload ++ (count ++ [0x00, 0x00]))
  refine ⟨by rw [hread], ?_, .inl ⟨.hello, by rw [hread], trivial⟩⟩
  have hflags : byteAt (plainHeader now dest ourIdentity.address.bytes (Constants.cipherNone <<< 3) Verb.hello.toByte ++
      (payload ++ (count ++ [0x00, 0x00]))) 18 = Constants.cipherNone <<< 3 := congrArg PacketHeader.flags hread
  rw [Salsa.cipherSuite, Salsa.packetFlagsOffset, hflags]
  decide

theorem sends_sendHello (dest : ByteVec 5) (target : SocketAddr) (now : UInt64) :
    Sends pr passed given n (n.sendHello pr dest target now) := by
  unfold sendHello
  simp only
  split
  · rename_i packet hbuild
    exact sends_sendArmored pr n (drafted_buildHello pr hbuild)
  · exact .refl n

/-! ### Before the handlers -/

theorem sends_maybeSendRendezvous (source dest : ByteVec 5) (now : UInt64) :
    Sends pr passed given n (n.maybeSendRendezvous pr source dest now) := by
  unfold maybeSendRendezvous
  split
  · rename_i sourceSecret sourcePhys destSecret destPhys _ _
    have hfirst : Sends pr passed given n (n.sendArmored pr sourceSecret
        (RootManager.buildRendezvous n.identity source dest (.fromSocketAddr destPhys) now) true sourcePhys) :=
      sends_sendArmored pr n (drafted_encryptedVerbPacket (.inl trivial))
    exact hfirst.trans (sends_sendArmored pr _ (drafted_encryptedVerbPacket (.inl trivial)))
  · exact .refl n

/-- The datagram is a packet for another node, passed on with one hop more. -/
def Passes (n : Node) (data next : Bytes) : Prop :=
  (PacketHeader.read data).dest ≠ n.address ∧ Switch.incrementHops data = some next

theorem sends_handleRelay {data : Bytes} (hdest : (PacketHeader.read data).dest ≠ n.address) (now : UInt64) :
    Sends pr (n.Passes data) given n (n.handleRelay pr data now) := by
  have hpush : ∀ next address, Switch.incrementHops data = some next →
      Sends pr (n.Passes data) given n (n.pushAction (.sendTo next address)) := by
    intro next address hnext
    refine ⟨rfl, fun _ h => h, fun _ h => .inl h, fun data' target hmem => ?_⟩
    rcases List.mem_append.mp hmem with hmem | hmem
    · exact .inl hmem
    · obtain ⟨rfl, -⟩ := NodeAction.sendTo.inj (List.mem_singleton.mp hmem)
      exact .inr (.inr ⟨hdest, hnext⟩)
  unfold handleRelay
  split
  · exact .refl n
  · rename_i next hnext
    simp only
    split
    · exact (hpush next _ hnext).trans (sends_maybeSendRendezvous pr _ ..)
    · exact hpush next _ hnext
    · exact .refl n

theorem sends_dropUnopened (data : Bytes) (fromAddr : SocketAddr) (now : UInt64) :
    Sends pr passed given n (n.dropUnopened data fromAddr now) := by
  unfold dropUnopened
  simp only
  split
  · refine Sends.trans ?_ (sends_pushAction pr _ (by intros; exact nofun))
    exact .of_quiet rfl rfl fun _ _ h => h
  · exact .refl n

/-- What ends with its admission is passed on, or sends nothing. -/
theorem sends_finished {n' : Node} {data : Bytes} {fromAddr : SocketAddr} {now : UInt64}
    (h : n.admitPacket pr data fromAddr now = .finished n') : Sends pr (n.Passes data) given { n with actions := [] } n' := by
  unfold admitPacket at h
  simp only at h
  split at h
  · cases h
  · split at h
    · cases h
      exact .refl _
    · split at h
      · rename_i hdest
        cases h
        exact sends_handleRelay pr { n with actions := [] } hdest now
      · split at h
        · split at h
          · cases h
            exact sends_dropUnopened ..
          · cases h
        · split at h
          · split at h
            · cases h
              exact .refl _
            · cases h
          · cases h

/-! ### The handlers -/

theorem sends_acceptHello (packet : Bytes) (hello : HelloPayload) (secret : Secret) (fromAddr : SocketAddr)
    (now packetId : UInt64) : Sends pr passed given n (n.acceptHello pr packet hello secret fromAddr now packetId) := by
  refine Sends.trans ?_ (sends_sendArmored pr _ ?_)
  · exact .of_quiet rfl rfl fun _ _ h => h
  · exact drafted_encryptedVerbPacket (.inl (Verb.ordinary_ok (by decide) _ _))

theorem sends_handleHello (packet : Bytes) (fromAddr : SocketAddr) (now packetId : UInt64) :
    Sends pr passed given n (n.handleHello pr packet fromAddr now packetId) := by
  unfold handleHello
  split
  · exact .refl n
  · split
    · exact .refl n
    · split
      · exact .refl n
      · split
        · exact .refl n
        · exact sends_acceptHello ..

theorem sends_sendProbeHello (peerAddress : ByteVec 5) (target : SocketAddr) (now : UInt64) :
    Sends pr passed given n (n.sendProbeHello pr peerAddress target now) := by
  unfold sendProbeHello
  split
  · exact .refl n
  · exact sends_sendHello ..

theorem sends_handlePushDirectPaths (packet : Bytes) (fromAddr : SocketAddr) (now : UInt64) :
    Sends pr passed given n (n.handlePushDirectPaths pr packet fromAddr now) := by
  unfold handlePushDirectPaths
  split
  · exact .refl n
  · simp only
    split
    · exact .refl n
    · rename_i peer _
      have hpeer : Sends pr passed given n (n.modifyPeer (PacketHeader.read packet).source
          fun _ => peer.addPath fromAddr (arrivedDirectly packet) now) := sends_modifyPeer pr n ..
      exact hpeer.trans (.foldl _ (fun m target => sends_sendProbeHello pr m _ target now) _ _)

theorem sends_handleRendezvous (packet : Bytes) (now : UInt64) :
    Sends pr passed given n (n.handleRendezvous pr packet now) := by
  unfold handleRendezvous
  split
  · exact .refl n
  · split
    · exact .refl n
    · exact sends_sendProbeHello ..

theorem sends_answerWhois {n n' : Node} {dest : ByteVec 5} {inRePacketId : UInt64} {known : List Identity}
    {fromAddr : SocketAddr} {now : UInt64} (h : n.answerWhois pr dest inRePacketId known fromAddr now = .ok n') :
    Sends pr passed given n n' := by
  unfold answerWhois at h
  split at h
  · cases h
    exact .refl n
  · split at h
    · cases h
      exact .refl n
    · simp only at h
      split at h
      · cases h
      · cases h
        exact sends_sendArmored pr n (drafted_encryptedVerbPacket (.inl (Verb.ordinary_ok (by decide) _ _)))

theorem sends_handleWhois {n n' : Node} {packet : Bytes} {fromAddr : SocketAddr} {now : UInt64}
    (h : n.handleWhois pr packet fromAddr now = .ok n') : Sends pr passed given n n' := by
  unfold handleWhois at h
  split at h
  · cases h
    exact .refl n
  · simp only at h
    split at h
    · cases h
    · rename_i answered hanswer
      cases h
      refine (sends_answerWhois pr hanswer).trans ?_
      split
      · exact .refl _
      · exact sends_pushAction pr _ (by intros; exact nofun)

theorem sends_handleEcho {n n' : Node} {packet : Bytes} {fromAddr : SocketAddr} {packetId : UInt64}
    (h : n.handleEcho pr packet fromAddr packetId = .ok n') : Sends pr passed given n n' := by
  unfold handleEcho at h
  simp only at h
  split at h
  · cases h
    exact .refl n
  · split at h
    · cases h
      exact .refl n
    · split at h
      · cases h
      · cases h
        refine (sends_allocatePacketId pr n).trans (sends_sendArmored pr _ ?_)
        exact drafted_flagged (by decide) (.inl ⟨.ok, rfl, Verb.ordinary_ok (by decide) _ _⟩)

theorem sends_applyReceivedNetworkConfig (nc : NetworkConfigPayload) :
    Sends pr passed given n (n.applyReceivedNetworkConfig nc) := by
  unfold applyReceivedNetworkConfig
  split
  · exact .refl n
  · simp only
    split
    · exact .of_quiet rfl rfl fun _ _ h => h
    · refine Sends.trans ?_ (sends_pushAction pr _ (by intros; exact nofun))
      exact .of_quiet rfl rfl fun _ _ h => h

theorem sends_handleOkGeneric (ok : OkPayload) (data : Bytes) (now : UInt64) :
    Sends pr passed given n (n.handleOkGeneric ok data now) := by
  unfold handleOkGeneric
  split
  · unfold handleMulticastGatherOk
    split
    · exact .of_quiet rfl rfl fun _ _ h => h
    · exact .refl n
  · split
    · exact sends_applyReceivedNetworkConfig ..
    · exact .refl n

theorem sends_deliverFrame (sender : ByteVec 5) (networkId : UInt64) (srcMac destMac : Mac) (ethertype : UInt16)
    (payload : Bytes) : Sends pr passed given n (Vl2.deliverFrame pr n sender networkId srcMac destMac ethertype payload) := by
  unfold Vl2.deliverFrame
  split
  · exact sends_pushAction pr n (by intros; exact nofun)
  · exact .refl n

theorem sends_handleMulticastGather (sender : ByteVec 5) (payload : Bytes) (fromAddr : SocketAddr)
    (inRePacketId : UInt64) : Sends pr passed given n (Vl2.handleMulticastGather pr n sender payload fromAddr inRePacketId) := by
  unfold Vl2.handleMulticastGather
  split
  · exact .refl n
  · simp only
    split
    · exact .refl n
    · exact sends_sendEncrypted pr n (Verb.ordinary_ok (by decide) _ _) ..

theorem sends_handleReport (verb : Verb) (source : ByteVec 5) (payload : Bytes) (fromAddr : SocketAddr)
    (packetId : UInt64) : Sends pr passed given n (n.handleReport verb source payload fromAddr packetId) := by
  unfold handleReport
  split <;> first
    | exact .refl n
    | (split <;> first | exact .refl n | exact sends_pushAction pr n (by intros; exact nofun))

theorem sends_handleVerb {verb : Verb} {d : Dispatch} {fromAddr : SocketAddr} {now : UInt64} {n' : Node}
    (h : handleVerb pr verb d fromAddr now = .ok n') : Sends pr passed given d.node n' := by
  unfold handleVerb at h
  simp only at h
  split at h
  case h_2 => exact sends_handleWhois pr h
  case h_4 => exact sends_handleEcho pr h
  all_goals obtain rfl := Except.ok.inj h
  · exact sends_handleHello ..
  · exact sends_handleRendezvous ..
  · exact sends_handlePushDirectPaths ..
  · unfold handleNetworkConfig
    split
    · exact .refl _
    · exact sends_applyReceivedNetworkConfig ..
  · unfold handleNetworkCredentials
    split
    · exact .refl _
    · exact sends_modifyNetwork ..
  · unfold Vl2.handleFrame
    split
    · exact .refl _
    · exact sends_deliverFrame ..
  · unfold Vl2.handleExtFrame
    split
    · exact .refl _
    · exact sends_deliverFrame ..
  · unfold Vl2.handleMulticastLike
    split
    · exact .refl _
    · exact .of_quiet rfl rfl fun _ _ h => h
  · exact sends_handleMulticastGather ..
  · unfold Vl2.handleMulticastFrame
    split
    · exact .refl _
    · exact sends_deliverFrame ..
  · exact sends_handleReport ..

/-- A handler that makes no call seals what it sends. -/
theorem sends_handleAlone {d : Dispatch} {fromAddr : SocketAddr} {now : UInt64} {n' : Node}
    (h : handleAlone pr d fromAddr now = .ok n') : Sends pr passed given d.node n' := by
  unfold handleAlone at h
  split at h
  · cases h
    exact .refl _
  · split at h
    · cases h
      exact .refl _
    · split at h
      · cases h
        exact sends_modifyPeer ..
      · cases h
        exact .refl _
      · cases h
        exact sends_handleOkGeneric ..
  · exact sends_handleVerb pr h

theorem sends_learnIdentity (identity : Identity) (now : UInt64) :
    Sends pr passed given n (n.learnIdentity pr identity now) := by
  unfold learnIdentity
  simp only
  split
  · refine Sends.trans ?_ (sends_sendHello pr _ ..)
    exact .of_quiet rfl rfl fun _ _ h => h
  · exact .of_quiet rfl rfl fun _ _ h => h

/-! ### The timer -/

theorem sends_greet (address : ByteVec 5) (target : SocketAddr) (now : UInt64) (remember : Peer → Peer) :
    Sends pr passed given n (n.greet pr address target now remember) := by
  unfold greet
  simp only
  split
  · exact .refl n
  · rename_i packet hbuild
    split
    · exact (sends_sendArmored pr n (drafted_buildHello pr hbuild)).trans (sends_modifyPeer pr _ ..)
    · exact .refl n

theorem sends_greetAll (targets : List (ByteVec 5 × SocketAddr)) (now packetId : UInt64) :
    Sends pr passed given n (n.greetAll pr targets now packetId) :=
  .foldl _ (fun m _ => sends_greet pr m ..) _ _

theorem sends_pushDirectPaths (now : UInt64) : Sends pr passed given n (n.pushDirectPaths pr now) := by
  unfold pushDirectPaths
  split
  · exact .refl n
  · refine .foldl _ (fun m _ => ?_) _ _
    unfold pushDirectPathsTo
    split
    · exact .refl m
    · exact (sends_sendEncrypted pr m (by trivial) ..).trans (sends_modifyPeer pr _ ..)

theorem sends_requestConfig (now networkId : UInt64) : Sends pr passed given n (requestConfig pr now n networkId) := by
  unfold requestConfig
  simp only
  split
  · exact .refl n
  · split
    · unfold requestController
      split
      · refine Sends.trans ?_ (sends_pushAction pr _ (by intros; exact nofun))
        exact .of_quiet rfl rfl fun _ _ h => h
      · exact .refl n
    · split
      · exact .refl n
      · exact (sends_sendEncrypted pr n (by trivial) ..).trans (sends_modifyNetwork pr _ ..)

theorem sends_queueConfigRequests (now : UInt64) : Sends pr passed given n (n.queueConfigRequests pr now) := by
  unfold queueConfigRequests
  refine Sends.trans ?_ (.foldl _ (fun m id => sends_requestConfig pr m now id) _ _)
  exact .of_quiet rfl rfl fun _ _ h => h

theorem sends_foldl_fst {α : Type} (f : Multicasting → α → Multicasting) (hf : ∀ m x, Sends pr passed given m.1 (f m x).1)
    (l : List α) (m : Multicasting) : Sends pr passed given m.1 (l.foldl f m).1 := by
  induction l generalizing m with
  | nil => exact .refl _
  | cons x rest ih => exact (hf m x).trans (ih _)

theorem sends_toPeer (now : UInt64) {send : Node → ByteVec 5 → Secret → SocketAddr → Node}
    (hsend : ∀ m address secret target, Sends pr passed given m (send m address secret target)) (m : Multicasting)
    (address : ByteVec 5) : Sends pr passed given m.1 (toPeer now send m address).1 := by
  unfold toPeer
  split
  · exact hsend ..
  · exact .refl _

theorem sends_sendLikes (now : UInt64) (m : Multicasting) (net : NetworkMembership) :
    Sends pr passed given m.1 (sendLikes pr now m net).1 := by
  unfold sendLikes
  refine Sends.trans ?_ (sends_foldl_fst pr _ (sends_toPeer pr now ?_) _ _)
  · exact sends_modifyNetwork pr _ ..
  · exact fun m _ _ _ => sends_sendEncrypted pr m (by trivial) ..

theorem sends_sendGathers (now : UInt64) (m : Multicasting) (net : NetworkMembership × List MulticastGroup) :
    Sends pr passed given m.1 (sendGathers pr now m net).1 := by
  unfold sendGathers
  refine Sends.trans ?_ (sends_foldl_fst pr _ (sends_toPeer pr now ?_) _ _)
  · exact sends_modifyNetwork pr _ ..
  · intro m address secret target
    refine .foldl _ (fun n group => ?_) _ _
    obtain ⟨asked, hgather⟩ := sendGather_eq pr n net.1.networkId now address secret target group
    rw [hgather]
    exact (sends_sendEncrypted pr n (by trivial) ..).trans (.of_quiet rfl rfl fun _ _ h => h)

theorem sends_multicastRound (now : UInt64) : Sends pr passed given n (n.multicastRound pr now) := by
  unfold multicastRound
  simp only
  set likes := List.foldl (sendLikes pr now) (n, []) _
  set done := List.foldl (sendGathers pr now) likes _
  have hlikes : Sends pr passed given n likes.1 := sends_foldl_fst pr _ (sends_sendLikes pr now) _ (n, [])
  have hdone : Sends pr passed given n done.1 := hlikes.trans (sends_foldl_fst pr _ (sends_sendGathers pr now) _ likes)
  split
  · exact hdone
  · exact hdone.trans (sends_pushAction pr _ (by intros; exact nofun))

/-- The timer up to the point where its actions are handed out. -/
theorem sends_timer (now : UInt64) : Sends pr passed given { n with actions := [] }
    (((n.greetings pr now).queueConfigRequests pr now).multicastRound pr now) := by
  have hexpire : Sends pr passed given { n with actions := [] } ((n.expire now).markStalePeers now) :=
    .of_quiet rfl rfl fun _ _ h => h
  have halive : Sends pr passed given { n with actions := [] } (((n.expire now).markStalePeers now).keepAlive pr now) :=
    hexpire.trans ((((sends_greetAll pr _ ..).trans (sends_greetAll pr _ ..)).trans
      (sends_pushDirectPaths pr _ now)).trans (sends_greetAll pr _ ..))
  exact ((halive.trans (sends_greetAll pr _ ..)).trans (sends_queueConfigRequests pr _ now)).trans
    (sends_multicastRound pr _ now)

/-- The first HELLOs, up to the same point. -/
theorem sends_firstHellos (now : UInt64) (targets : List (ByteVec 5 × SocketAddr)) :
    Sends pr passed given n (targets.foldl (firstHello pr now) n) := by
  refine .foldl _ (fun m target => ?_) _ _
  unfold firstHello
  exact sends_greet pr m ..

/-! ### What hands its own actions out -/

/-- From one node to the next only packets from us are sealed, what is queued stays, and
every datagram handed out is of the history. -/
structure HandsOut (given : Bytes → Prop) (n n' : Node) (actions : List NodeAction) : Prop where
  identity : n'.identity = n.identity
  kept : ∀ a ∈ n.armored, a ∈ n'.armored
  own : ∀ a ∈ n'.armored, a ∈ n.armored ∨ ∃ encrypt, Drafted n.address given a.packet encrypt
  queue : n'.actions = n.actions
  handed : ∀ data address, .sendTo data address ∈ actions → Recorded pr n'.armored data

theorem handsOut_nothing (actions : List NodeAction) (hno : ∀ data address, .sendTo data address ∉ actions) :
    HandsOut pr given n n actions :=
  ⟨rfl, fun _ h => h, fun _ h => .inl h, rfl, fun data address h => absurd h (hno data address)⟩

/-- What is sent into an empty queue, with the queue put back. -/
theorem handsOut_of_sends {n' : Node} (h : Sends pr (fun _ => False) given { n with actions := [] } n') :
    HandsOut pr given n { n' with actions := n.actions } n'.actions := by
  refine ⟨h.identity, h.kept, h.own, rfl, fun data address hmem => ?_⟩
  rcases h.queued data address hmem with hmem | hrecorded | hno
  · cases hmem
  · exact hrecorded
  · exact hno.elim

theorem handsOut_flushConfigRequests (now : UInt64) :
    HandsOut pr given n (n.flushConfigRequests pr now).1 (n.flushConfigRequests pr now).2 :=
  handsOut_of_sends pr n (sends_queueConfigRequests pr _ now)

theorem handsOut_sendWhois (addresses : List (ByteVec 5)) (now : UInt64) :
    HandsOut pr given n (n.sendWhois pr addresses now).1 (n.sendWhois pr addresses now).2 := by
  unfold sendWhois
  split
  · exact handsOut_nothing pr n [] fun _ _ => List.not_mem_nil
  · split
    · exact handsOut_nothing pr n [] fun _ _ => List.not_mem_nil
    · rename_i root secret target _ _ packet hbuild
      refine handsOut_of_sends pr n (sends_sendArmored pr _ ?_)
      unfold RootManager.buildWhois at hbuild
      simp only at hbuild
      split at hbuild
      · cases hbuild
      · rw [← Except.ok.inj hbuild]
        exact drafted_encryptedVerbPacket (.inl trivial)

/-- The packet of a frame of the host: an EXT_FRAME to a member of the network, with the
frame as the host gave it. -/
def FrameOf (n : Node) (networkId : UInt64) (ethertype : UInt16) (payload : Bytes) (packet : Bytes) : Prop :=
  ∃ network packetId, ∃ member ∈ network.members, n.findNetwork networkId = some network ∧
    packet = encryptedVerbPacket packetId n.address member.ztAddress .extFrame
      { networkId := network.networkId, flags := 0, destMac := member.mac, srcMac := network.ourMac n.address
        ethertype, payload : ExtFramePayload }.serialize

variable {networkId : UInt64} {network : NetworkMembership}

theorem handsOut_sendToMember (hnetwork : n.findNetwork networkId = some network) {member : NetworkMember}
    (hmember : member ∈ network.members) (ethertype : UInt16) (payload : Bytes) (now : UInt64) :
    HandsOut pr (n.FrameOf networkId ethertype payload) n
      (Vl2.sendToMember pr n network member ethertype payload n.address now).1
      (Vl2.sendToMember pr n network member ethertype payload n.address now).2 := by
  unfold Vl2.sendToMember
  simp only
  split
  · exact handsOut_nothing pr n _ fun _ _ h => nomatch List.mem_singleton.mp h
  · rename_i address secret _
    split
    · exact ⟨rfl, fun _ h => h, fun _ h => .inl h, rfl, fun _ _ h => nomatch h⟩
    · rename_i sealed harmor
      have hdrafted := drafted_encryptedVerbPacket (.inr (show n.FrameOf networkId ethertype payload _ from
        ⟨network, n.nextPacketId, member, hmember, hnetwork, rfl⟩))
      refine ⟨rfl, fun a ha => List.mem_append_left _ ha, ?_, rfl, ?_⟩
      · intro a ha
        rcases List.mem_append.mp ha with ha | ha
        · exact .inl ha
        · rw [List.mem_singleton.mp ha]
          exact .inr ⟨true, hdrafted⟩
      · intro data target hmem
        unfold Vl2.fragmentedSend at hmem
        split at hmem
        · rename_i pieces hpieces
          obtain ⟨piece, hpiece, heq⟩ := List.mem_map.mp hmem
          obtain ⟨rfl, -⟩ := NodeAction.sendTo.inj heq
          exact ⟨_, List.mem_append_right _ List.mem_cons_self, sealed, ⟨true, hdrafted.suite, harmor⟩,
            .inr ⟨_, pieces, hpieces, hpiece⟩⟩
        · cases hmem

theorem handsOut_unicastOutbound (hnetwork : n.findNetwork networkId = some network) {member : Option NetworkMember}
    (hmember : ∀ m, member = some m → m ∈ network.members) (unknown : Bool) (ethertype : UInt16) (payload : Bytes)
    (now : UInt64) :
    HandsOut pr (n.FrameOf networkId ethertype payload) n
      (Vl2.unicastOutbound pr n network member unknown ethertype payload n.address now).1
      (Vl2.unicastOutbound pr n network member unknown ethertype payload n.address now).2 := by
  unfold Vl2.unicastOutbound
  split
  · rename_i m
    exact handsOut_sendToMember pr n hnetwork (hmember m rfl) ..
  · split
    · exact ⟨rfl, fun _ h => h, fun _ h => .inl h, rfl, fun _ _ h => nomatch List.mem_singleton.mp h⟩
    · exact handsOut_nothing pr n [] fun _ _ => List.not_mem_nil

/-- A datagram of an ARP request: the bare frame, to a subscriber that can be reached. -/
def IsArpRequest (n : Node) (networkId : UInt64) (payload : Bytes) (now : UInt64) (data : Bytes) (address : SocketAddr) :
    Prop :=
  ∃ network, n.findNetwork networkId = some network ∧ data = (Vl2.arpFrame n network payload).serialize ∧
    address ∈ Vl2.arpDestinations n network.networkId now

/-- A frame of the host is sealed, unless it is an ARP request. -/
theorem handsOut_processOutboundFrame {n n' : Node} {networkId : UInt64} {ethertype : UInt16} {payload : Bytes}
    {now : UInt64} {actions : List NodeAction}
    (h : Vl2.processOutboundFrame pr n networkId ethertype payload n.address now = .ok (n', actions)) :
    HandsOut pr (n.FrameOf networkId ethertype payload) n n' actions ∨ (ethertype = Ethernet.ethertypeArp ∧ n' = n ∧
      ∀ data address, .sendTo data address ∈ actions → IsArpRequest n networkId payload now data address) := by
  have hnothing : HandsOut pr (n.FrameOf networkId ethertype payload) n n [] := handsOut_nothing pr n [] fun _ _ => List.not_mem_nil
  unfold Vl2.processOutboundFrame at h
  split at h
  · cases h
    exact .inl hnothing
  · rename_i network hnetwork
    split at h
    · rename_i harp
      obtain ⟨sent, hsent, heq⟩ := bind_eq_ok h
      cases heq
      refine .inr ⟨harp, rfl, fun data address hmem => ?_⟩
      rw [Vl2.arpOutbound_cases] at hsent
      split at hsent
      · cases hsent
        exact nomatch List.mem_singleton.mp hmem
      · split at hsent
        · cases hsent
        · cases hsent
          obtain ⟨target, htarget, heq⟩ := List.mem_map.mp hmem
          obtain ⟨rfl, rfl⟩ := NodeAction.sendTo.inj heq
          exact ⟨network, hnetwork, rfl, htarget⟩
    · split at h
      · split at h
        · cases h
          exact .inl hnothing
        · obtain ⟨rfl, rfl⟩ := Prod.mk.inj (Except.ok.inj h)
          exact .inl (handsOut_unicastOutbound pr n hnetwork (fun m hm => List.mem_of_find?_eq_some hm) ..)
      · split at h
        · split at h
          · cases h
            exact .inl hnothing
          · obtain ⟨rfl, rfl⟩ := Prod.mk.inj (Except.ok.inj h)
            exact .inl (handsOut_unicastOutbound pr n hnetwork (fun m hm => List.mem_of_find?_eq_some hm) ..)
        · cases h
          exact .inl hnothing

end Node

end ManyTier
