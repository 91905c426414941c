import ManyTier.Delivery.Frames
import ManyTier.Lib.Together
import ManyTier.Security.FrameTrust
import ManyTier.Service.Datagrams

/-! Who sent what a node handles.

Nodes in any number take their steps in any order, and what they receive is up to whoever
holds the network between them: he makes packets up, changes them, drops them, repeats
them and sends them back. What he does not do is seal: what a node opens under a secret,
some node has sealed under it (`Unforged`). Then what a node handles of the packets it
opens was built by the node named as the source, for this node, and a frame of such a
packet is one that the host of that node gave it. -/
namespace ManyTier

/-! ### A packet opened -/

namespace Armored
variable (pr : Primitives)

/-- What the handler of a packet gets: its verb and payload, decompressed if need be. -/
def handled (a : Armored) : Option Bytes :=
  if byteAt a.packet 27 &&& Constants.verbFlagCompressed = 0 then some (a.packet.drop 27)
  else (Node.decompressPacket pr a.packet).map (·.drop 27)

end Armored

/-- Decompression looks at the verb and what is behind it. -/
theorem Node.drop_decompressPacket (pr : Primitives) {a b : Bytes} (h : a.drop 27 = b.drop 27) :
    (Node.decompressPacket pr a).map (·.drop 27) = (Node.decompressPacket pr b).map (·.drop 27) := by
  have hlength : a.length - 27 = b.length - 27 := by simpa using congrArg List.length h
  have hpayload : a.drop 28 = b.drop 28 := by
    rw [← List.drop_drop (i := 1) (j := 27), h, List.drop_drop]
  have hverb : byteAt a 27 = byteAt b 27 := by
    have hhead : ∀ c : Bytes, byteAt c 27 = byteAt (c.drop 27) 0 := fun c => by
      simp [byteAt, List.getD_eq_getElem?_getD]
    rw [hhead, h, ← hhead]
  have hfront : ∀ (c : Bytes) (x : UInt8) (payload : Bytes), 28 ≤ c.length →
      (c.take 27 ++ (x :: payload)).drop 27 = x :: payload := by
    intro c x payload hc
    exact List.drop_left' (by simp; omega)
  have hshort : a.length < Constants.minPacketLength ↔ b.length < Constants.minPacketLength := by
    show a.length < 28 ↔ b.length < 28
    omega
  unfold Node.decompressPacket
  rw [show a.drop Constants.minPacketLength = b.drop Constants.minPacketLength from hpayload, hverb]
  by_cases ha : a.length < Constants.minPacketLength
  · rw [if_pos ha, if_pos (hshort.mp ha)]
  · have hb := mt hshort.mpr ha
    rw [if_neg ha, if_neg hb, Option.map_map, Option.map_map]
    congr 1
    funext payload
    exact (hfront a _ payload (Nat.not_lt.mp ha)).trans (hfront b _ payload (Nat.not_lt.mp hb)).symm

namespace Armored
variable {pr : Primitives} {a : Armored} {sealed data opened : Bytes}

/-- Up to its flags a sealed packet is the packet, and it opens to what the packet says. -/
theorem Seals.opens (h : a.Seals pr sealed) : sealed.take 19 = a.packet.take 19 ∧ ∃ opened,
    Salsa.dearmorPacket pr a.secret sealed = .ok opened ∧ opened.drop 27 = a.packet.drop 27 := by
  obtain ⟨encrypt, hsuite, harmor⟩ := h
  have hlen : Salsa.packetMinLen ≤ a.packet.length := by
    by_contra hshort
    rw [Salsa.armorPacket, if_pos (by omega)] at harmor
    cases harmor
  have hencrypt : encrypt = true ↔ Salsa.cipherSuite a.packet = 1 := by
    rw [hsuite]
    cases encrypt <;> simp
  obtain ⟨sealed', mac, harmor', -, htake, -, hopen⟩ :=
    Salsa.dearmorPacket_armorPacket pr a.secret a.packet encrypt hlen hencrypt
  obtain rfl : sealed' = sealed := Except.ok.inj (harmor'.symm.trans harmor)
  exact ⟨htake, _, hopen, Salsa.drop_withMac a.packet mac hlen⟩

/-- Behind any relays it has the addresses and the id of the packet. -/
theorem Seals.fieldAt (h : a.Seals pr sealed) (hsame : SameButHops sealed data) (n off : Nat) (hn : off + n ≤ 18) :
    fieldAt n data off = ManyTier.fieldAt n a.packet off := by
  rw [hsame.fieldAt_front n off hn, ← fieldAt_take n sealed 19 off (by omega), h.opens.1,
    fieldAt_take n a.packet 19 off (by omega)]

/-- A node that opens it gets what the packet says. -/
theorem Seals.dearmor (h : a.Seals pr sealed) (hsame : SameButHops sealed data) {n : Node}
    (hsecret : n.sharedSecretForPeer pr (PacketHeader.read data).source = some a.secret)
    (hopened : n.dearmor pr data = some opened) : opened.drop 27 = a.packet.drop 27 := by
  obtain ⟨htake, clear, hopen, hdrop⟩ := h.opens
  obtain ⟨clear', hopen', hclear⟩ := Salsa.dearmorPacket_sameButHops pr a.secret hsame hopen
  have hsuite : (PacketHeader.read data).cipherSuite = Constants.cipherNone ∨
      (PacketHeader.read data).cipherSuite = Constants.cipherSalsa2012 := by
    have hdata : Salsa.cipherSuite data = Salsa.cipherSuite a.packet := by
      rw [hsame.cipherSuite, Salsa.cipherSuite_eq_of_take htake]
    obtain ⟨encrypt, hencrypt, -⟩ := h
    rw [hencrypt] at hdata
    cases encrypt
    · exact .inl hdata
    · exact .inr hdata
  have hwith : ((n.sharedSecretForPeer pr (PacketHeader.read data).source).bind fun secret =>
      (Salsa.dearmorPacket pr secret data).toOption) = some clear' := by
    rw [hsecret, Option.bind_some, hopen']
    rfl
  unfold Node.dearmor at hopened
  simp only [hwith] at hopened
  have hsome : some clear' = some opened := by
    rcases hsuite with hsuite | hsuite
    · rw [if_pos hsuite] at hopened
      split at hopened
      · cases hopened
      · exact hopened
    · rw [hsuite] at hopened
      exact hopened
  rw [← Option.some.inj hsome, hclear.drop_back 27 (by decide), hdrop]

/-- What the handler gets of it is the packet. -/
theorem Seals.dispatched (h : a.Seals pr sealed) {c : Call} {d : Dispatch} (hsame : SameButHops sealed c.data)
    (hsecret : c.before.sharedSecretForPeer pr (PacketHeader.read c.data).source = some a.secret)
    (hopened : c.before.dearmor pr c.data = some opened) (hd : c.dispatched pr = some d) :
    a.handled pr = some (d.packet.drop 27) ∧ d.source = a.source ∧
      (PacketHeader.read a.packet).dest = c.before.address ∧ (PacketHeader.read a.packet).packetId = d.packetId := by
  obtain ⟨-, -, hdest, hsource, hid, -, hpacket⟩ := Node.admitPacket_dispatch (Call.dispatched_eq_some.mp hd)
  have hdrop := h.dearmor hsame hsecret hopened
  have hverb : byteAt a.packet 27 = byteAt opened 27 := by
    have hhead : ∀ c : Bytes, byteAt c 27 = byteAt (c.drop 27) 0 := fun c => by
      simp [byteAt, List.getD_eq_getElem?_getD]
    rw [hhead, ← hdrop, ← hhead]
  refine ⟨?_, hsource.trans (h.fieldAt hsame 5 13 (by decide)), (h.fieldAt hsame 5 8 (by decide)).symm.trans hdest, ?_⟩
  · rcases hpacket with ⟨hnone, -⟩ | ⟨opened', hopened', hpacket, -⟩
    · rw [hnone] at hopened
      cases hopened
    · obtain rfl := Option.some.inj (hopened'.symm.trans hopened)
      unfold handled
      rw [hverb]
      rcases hpacket with ⟨hplain, rfl⟩ | ⟨hflag, hwhole⟩
      · rw [if_pos hplain, hdrop]
      · rw [if_neg hflag, Node.drop_decompressPacket pr hdrop.symm, hwhole]
        rfl
  · rw [hid]
    exact congrArg (fun v : ByteVec 8 => ofBe64 v.toBytes) (h.fieldAt hsame 8 0 (by decide)).symm

/-- And what is sealed for a node that holds the secret gets to a handler there. -/
theorem Seals.admitted (h : a.Seals pr sealed) (hencrypted : Salsa.cipherSuite a.packet = 1)
    (hsource : byteAt a.source.toBytes 0 ≠ 0xff) {n : Node} (hdest : (PacketHeader.read a.packet).dest = n.address)
    (hsecret : n.sharedSecretForPeer pr a.source = some a.secret) {said : Bytes} (hhandled : a.handled pr = some said)
    (fromAddr : SocketAddr) (now : UInt64) :
    ∃ d, n.admitPacket pr sealed fromAddr now = .dispatch d ∧ d.packet.drop 27 = said ∧
      d.verbId = byteAt d.packet 27 &&& 0x1f ∧ d.source = a.source ∧
      d.node = Node.noteSource { n with actions := [] } a.source fromAddr now ∧ (n.dearmor pr sealed).isSome = true := by
  obtain ⟨htake, opened, hopen, hdrop⟩ := h.opens
  have hfield : ∀ k off, off + k ≤ 19 → ManyTier.fieldAt k sealed off = ManyTier.fieldAt k a.packet off := by
    intro k off hk
    rw [← fieldAt_take k sealed 19 off hk, htake, fieldAt_take k a.packet 19 off hk]
  have hsrc : (PacketHeader.read sealed).source = a.source := hfield 5 13 (by decide)
  have hto : (PacketHeader.read sealed).dest = n.address := (hfield 5 8 (by decide)).trans hdest
  have hsuite : (PacketHeader.read sealed).cipherSuite = Constants.cipherSalsa2012 := by
    show Salsa.cipherSuite sealed = 1
    rw [Salsa.cipherSuite_eq_of_take htake, hencrypted]
  have hwhole : isFragment sealed = false := by
    have hfirst : byteAt sealed 13 = byteAt a.source.toBytes 0 := by
      rw [← hsrc]
      exact (byteAt_fieldAt sealed 13 0 (by decide)).symm
    simp [isFragment, hfirst, Constants.fragmentIndicator, hsource]
  have hlong : ¬ sealed.length < Constants.minPacketLength := by
    intro hshort
    rw [Salsa.dearmorPacket, if_pos (show sealed.length < Salsa.packetMinLen from hshort)] at hopen
    cases hopen
  have hclear : Node.dearmor pr { n with actions := [] } sealed = some opened := by
    have hheld : Node.sharedSecretForPeer pr { n with actions := [] } (PacketHeader.read sealed).source = some a.secret := by
      rw [hsrc]
      exact hsecret
    unfold Node.dearmor
    simp only [hsuite, hheld, hopen, Option.bind_some, Except.toOption]
    rfl
  have hsome : (n.dearmor pr sealed).isSome = true := by
    rw [show n.dearmor pr sealed = some opened from hclear]
    rfl
  have hverb : byteAt opened 27 = byteAt a.packet 27 := by
    have hhead : ∀ c : Bytes, byteAt c 27 = byteAt (c.drop 27) 0 := fun c => by
      simp [byteAt, List.getD_eq_getElem?_getD]
    rw [hhead, hdrop, ← hhead]
  unfold handled at hhandled
  by_cases hplain : byteAt a.packet 27 &&& Constants.verbFlagCompressed = 0
  · rw [if_pos hplain] at hhandled
    refine ⟨⟨Node.noteSource { n with actions := [] } a.source fromAddr now, opened, byteAt opened 27 &&& 0x1f, a.source,
      (PacketHeader.read sealed).packetId⟩, ?_, by rw [hdrop]; exact Option.some.inj hhandled, rfl, rfl, rfl, hsome⟩
    unfold Node.admitPacket
    simp only [hwhole, Bool.false_eq_true, if_false, if_neg hlong, hto]
    rw [if_neg (show ¬ (n.address ≠ Node.address { n with actions := [] }) from fun h => h rfl), hclear]
    simp only [hverb, hplain, ne_eq, not_true_eq_false, if_false, Node.handOn, hsrc]
  · rw [if_neg hplain, ← Node.drop_decompressPacket pr hdrop] at hhandled
    obtain ⟨packet, hpacket, rfl⟩ := Option.map_eq_some_iff.mp hhandled
    refine ⟨⟨Node.noteSource { n with actions := [] } a.source fromAddr now, packet, byteAt packet 27 &&& 0x1f, a.source,
      (PacketHeader.read sealed).packetId⟩, ?_, rfl, rfl, rfl, rfl, hsome⟩
    unfold Node.admitPacket
    simp only [hwhole, Bool.false_eq_true, if_false, if_neg hlong, hto]
    rw [if_neg (show ¬ (n.address ≠ Node.address { n with actions := [] }) from fun h => h rfl), hclear]
    simp only [hverb, ne_eq, hplain, not_false_eq_true, if_true, hpacket, Node.handOn, hsrc]

end Armored

/-- The handler of a packet goes by the verb the packet was built with. -/
theorem Armored.verbId_handled {pr : Primitives} {a : Armored} {d : Dispatch}
    (hhandled : a.handled pr = some (d.packet.drop 27)) (hverb : d.verbId = byteAt d.packet 27 &&& 0x1f) :
    d.verbId = byteAt a.packet 27 &&& 0x1f := by
  have hhead : ∀ c : Bytes, byteAt c 27 = byteAt (c.drop 27) 0 := fun c => by
    simp [byteAt, List.getD_eq_getElem?_getD]
  rw [hverb, hhead]
  unfold Armored.handled at hhandled
  split at hhandled
  · rw [← Option.some.inj hhandled, ← hhead]
  · obtain ⟨packet, hpacket, hdrop⟩ := Option.map_eq_some_iff.mp hhandled
    unfold Node.decompressPacket at hpacket
    split at hpacket
    · cases hpacket
    · rename_i hlen
      obtain ⟨payload, -, rfl⟩ := Option.map_eq_some_iff.mp hpacket
      have hclear : ∀ x : UInt8, (x &&& ~~~Constants.verbFlagCompressed) &&& 0x1f = x &&& 0x1f :=
        forall_byte (by decide +kernel)
      have h28 : 28 ≤ a.packet.length := Nat.not_lt.mp hlen
      rw [← hdrop, List.drop_left' (by simp; omega)]
      exact hclear _

/-- An ordinary packet is handled by the verb it was built with. -/
theorem Drafted.ordinary {ours : ByteVec 5} {given : Bytes → Prop} {a : Armored} {encrypt : Bool} {d : Dispatch}
    (h : Drafted ours given a.packet encrypt) (hverb : d.verbId = byteAt a.packet 27 &&& 0x1f) :
    (∃ verb, byteAt a.packet 27 = Verb.toByte verb ∧ Verb.fromByte d.verbId = some verb ∧
      verb.Ordinary (a.packet.drop Constants.minPacketLength)) ∨ given a.packet := by
  rcases h.content with ⟨verb, hbyte, hordinary⟩ | hgiven
  · have hplain : Verb.toByte verb &&& 0x1f = Verb.toByte verb := by cases verb <;> decide
    have hbyte' : byteAt a.packet 27 = Verb.toByte verb := hbyte
    exact .inl ⟨verb, hbyte, by rw [hverb, hbyte', hplain, Verb.fromByte_toByte], hordinary⟩
  · exact .inr hgiven

/-- Of the packets a node builds only those it was given bring frames. -/
theorem Drafted.frameOf {ours : ByteVec 5} {given : Bytes → Prop} {a : Armored} {encrypt : Bool} {d : Dispatch}
    (h : Drafted ours given a.packet encrypt) (hverb : d.verbId = byteAt a.packet 27 &&& 0x1f)
    (hframe : (Node.frameOf d).isSome) : given a.packet := by
  rcases h.ordinary hverb with ⟨verb, -, hfrom, hordinary⟩ | hgiven
  · have hnone : Node.frameOf d = none := by
      unfold Node.frameOf
      rw [hfrom]
      cases verb <;> first | rfl | cases hordinary
    rw [hnone] at hframe
    cases hframe
  · exact hgiven

/-- What a controller grants it says in an OK or in credentials. -/
theorem Service.GrantOf.verb {pr : Primitives} {n : Node} {requester : ByteVec 5} {requestPacketId networkId : UInt64}
    {dictData : Bytes} {credentials : NetworkCredentialsPayload} {packet : Bytes}
    (h : Service.GrantOf pr n requester requestPacketId networkId dictData credentials packet) :
    byteAt packet 27 &&& 0x1f = Verb.ok.toByte ∨ byteAt packet 27 &&& 0x1f = Verb.networkCredentials.toByte := by
  have hhead : ∀ packetId flags verb payload,
      byteAt (plainHeader packetId requester n.address flags verb ++ payload) 27 = verb := fun packetId flags verb payload =>
    congrArg PacketHeader.verb (read_plainHeader packetId requester n.address flags verb payload)
  rcases h with ⟨packetId, _, ours, -, i, -, rfl⟩ | ⟨-, packetId, rfl⟩
  · exact .inl ((congrArg (· &&& 0x1f) (hhead _ _ _ _)).trans (by decide))
  · exact .inr ((congrArg (· &&& 0x1f) (hhead _ _ _ _)).trans (by decide))

/-- And that brings no frame. -/
theorem Service.GrantOf.frameOf {pr : Primitives} {n : Node} {requester : ByteVec 5} {requestPacketId networkId : UInt64}
    {dictData : Bytes} {credentials : NetworkCredentialsPayload} {a : Armored} {d : Dispatch}
    (h : Service.GrantOf pr n requester requestPacketId networkId dictData credentials a.packet)
    (hverb : d.verbId = byteAt a.packet 27 &&& 0x1f) : Node.frameOf d = none := by
  unfold Node.frameOf
  rcases h.verb with hok | hcredentials
  · rw [hverb, hok, Verb.fromByte_toByte]
  · rw [hverb, hcredentials, Verb.fromByte_toByte]

/-- What the handler of a frame of the host gets is that frame. -/
theorem Node.frameOf_extFrame {pr : Primitives} {a : Armored} {d : Dispatch} {packetId : UInt64} {ours dest : ByteVec 5}
    {ext : ExtFramePayload} (ha : a.packet = encryptedVerbPacket packetId ours dest .extFrame ext.serialize)
    (hhandled : a.handled pr = some (d.packet.drop 27)) (hverb : d.verbId = byteAt d.packet 27 &&& 0x1f) :
    Node.frameOf d =
      some (ext.networkId, .frameReceived ext.networkId ext.srcMac ext.destMac ext.ethertype ext.payload) := by
  have hplain : byteAt a.packet 27 = Verb.extFrame.toByte := by
    rw [ha]
    exact congrArg PacketHeader.verb (read_plainHeader packetId dest ours encryptedFlags _ ext.serialize)
  have hdrop : a.packet.drop 27 = Verb.extFrame.toByte :: ext.serialize := by
    simp [ha, encryptedVerbPacket, plainHeader, List.drop_append, List.drop_eq_nil_of_le]
  have hpacket : d.packet.drop 27 = Verb.extFrame.toByte :: ext.serialize := by
    unfold Armored.handled at hhandled
    rw [hplain, if_pos (by decide), hdrop] at hhandled
    exact (Option.some.inj hhandled).symm
  have hpayload : d.packet.drop Constants.minPacketLength = ext.serialize := by
    show d.packet.drop (27 + 1) = ext.serialize
    rw [← List.drop_drop, hpacket, List.drop_succ_cons, List.drop_zero]
  have hid : d.verbId = Verb.extFrame.toByte := by
    have hbyte : byteAt d.packet 27 = byteAt (d.packet.drop 27) 0 := by simp [byteAt, List.getD_eq_getElem?_getD]
    rw [hverb, hbyte, hpacket]
    exact (by decide : Verb.extFrame.toByte &&& 0x1f = Verb.extFrame.toByte)
  unfold Node.frameOf
  rw [hid, Verb.fromByte_toByte]
  simp only [hpayload, ExtFramePayload.parse_serialize]

/-- The network of a frame is the one it is delivered for. -/
theorem Node.frameOf_network {d : Dispatch} {networkId networkId' : UInt64} {srcMac destMac : Mac} {ethertype : UInt16}
    {payload : Bytes} (h : Node.frameOf d = some (networkId', .frameReceived networkId srcMac destMac ethertype payload)) :
    networkId' = networkId := by
  unfold Node.frameOf at h
  simp only at h
  split at h
  case h_4 => cases h
  all_goals
    split at h
    · obtain ⟨rfl, heq⟩ := Prod.mk.inj (Option.some.inj h)
      exact (NodeAction.frameReceived.inj heq).1
    · cases h

/-! ### Runs of many nodes -/

namespace Service
variable {ι : Type} [DecidableEq ι] (pr : Primitives)

/-- Runs of nodes, by name, that take their steps in any order. -/
abbrev NetRun (nodes : ι → Node) (t : List (Entry (ι → Node) (ι × Event) Output)) (nodes' : ι → Node) : Prop :=
  Run (together fun _ => step pr) nodes t nodes'

/-- What a call opens, some node has sealed under the secret it is opened with; on the way
relays have counted hops in it and nobody has changed it. -/
def Unforged (nodes : ι → Node) (c : Call) : Prop :=
  ∀ opened, c.before.dearmor pr c.data = some opened → ∃ i, ∃ a ∈ (nodes i).armored, ∃ sealed,
    a.Seals pr sealed ∧ SameButHops sealed c.data ∧
      c.before.sharedSecretForPeer pr (PacketHeader.read c.data).source = some a.secret

variable {pr}

/-- The history of a run that starts without one: the node built it, and said what is
ordinary or what it was told. -/
theorem run_history {start n : Node} {t : List (Entry Node Event Output)} (hrun : NodeRun pr start t n)
    (hnew : start.armored = []) :
    n.address = start.address ∧ ∀ a ∈ n.armored, ∃ e ∈ t, ∃ encrypt,
      Drafted start.address (Told pr e) a.packet encrypt := by
  have hsteps : ∀ e : Entry Node Event Output, step pr e.before e.event = .ok (e.after, e.output) → True →
      e.before.address = start.address → e.after.address = start.address ∧ e.before.address = start.address :=
    fun e he _ hbefore => ⟨(congrArg (·.address.bytes) (step_emits he).identity).trans hbefore, hbefore⟩
  have haddress := hrun.invariant (fun m => m.address = start.address) (fun _ => True)
    (fun e he hc hb => (hsteps e he hc hb).1) rfl fun _ _ => trivial
  have hentries := hrun.forall_entries (fun m => m.address = start.address) (fun _ => True)
    (fun e => e.before.address = start.address) hsteps rfl fun _ _ => trivial
  refine ⟨haddress, fun a ha => ?_⟩
  rcases hrun.origin (fun m (a : Armored) => a ∈ m.armored)
    (fun e a => ∃ encrypt, Drafted e.before.address (Told pr e) a.packet encrypt)
    (fun e he a => (step_emits he).own a) ha with hstart | ⟨e, he, encrypt, hdrafted⟩
  · rw [hnew] at hstart
    cases hstart
  · exact ⟨e, he, encrypt, hentries e he ▸ hdrafted⟩

/-- Calls keep the identity. -/
theorem identity_invariant (ours : ByteVec 5) : Node.CallInvariant pr (fun _ => True) fun n => n.address = ours := by
  have hsends : ∀ {passed : Bytes → Prop} {n n' : Node}, Sends pr passed (fun _ => False) n n' → n.address = ours →
      n'.address = ours := fun h hn => h.address.trans hn
  refine ⟨fun _ _ _ _ h => h, ?_, ?_, ?_, ?_⟩
  · intro n data fromAddr now n' hadmitted hn
    exact hsends (Node.sends_finished pr n hadmitted) hn
  · intro c d n' _ hd halone hn
    have hnoted : d.node.address = ours := by rw [Call.dispatched_node hd]; exact hn
    have hhandled : Sends pr (fun _ => False) (fun _ => False) d.node n' := Node.sends_handleAlone pr halone
    exact hsends hhandled hnoted
  · intro c d _ hd _ _ hn
    rw [Call.dispatched_node hd]
    exact hn
  · intro n identity now hn
    have hlearned : Sends pr (fun _ => False) (fun _ => False) n (n.learnIdentity pr identity now) :=
      Node.sends_learnIdentity pr n identity now
    exact hsends hlearned hn

variable {nodes nodes' : ι → Node} {earlier later : List (Entry (ι → Node) (ι × Event) Output)}
  {e : Entry (ι → Node) (ι × Event) Output}

/-- A packet that a node opens and hands to a handler: which node built it and when. -/
theorem drafted_of_dispatched (hrun : NetRun pr nodes (earlier ++ e :: later) nodes')
    (hnew : ∀ i, (nodes i).armored = []) {c : Call} (hc : c ∈ e.output.calls) (hunforged : Unforged pr e.before c)
    {d : Dispatch} (hd : c.dispatched pr = some d) (hopened : (c.before.dearmor pr c.data).isSome) :
    ∃ i, (nodes i).address = d.source ∧ ∃ a ∈ (e.before i).armored,
      (a.handled pr = some (d.packet.drop 27) ∧ (PacketHeader.read a.packet).dest = (nodes e.event.1).address ∧
        (PacketHeader.read a.packet).packetId = d.packetId) ∧
      (d.verbId = byteAt d.packet 27 &&& 0x1f) ∧
      ∃ e' ∈ stepsOf i earlier, ∃ encrypt, Drafted (nodes i).address (Told pr e') a.packet encrypt := by
  obtain ⟨hbefore, hstep⟩ := hrun.cut
  obtain ⟨hlocal, -⟩ := together_eq_ok hstep
  obtain ⟨data, fromAddr, now, hevent⟩ := step_calls hlocal hc
  have hours : c.before.address = (nodes e.event.1).address := by
    rw [hevent] at hlocal
    obtain ⟨r, hr, -, hout⟩ := step_receive hlocal
    have hcalls : c ∈ r.calls := by
      have hsame : e.output = ⟨r.actions, r.calls⟩ := hout
      rw [hsame] at hc
      exact hc
    obtain ⟨-, hall⟩ := (identity_invariant (e.before e.event.1).address).receiveFuel hr (fun _ _ => trivial) rfl
    exact (hall c hcalls).trans (run_history (hbefore.part e.event.1) (hnew _)).1
  obtain ⟨opened, hsome⟩ := Option.isSome_iff_exists.mp hopened
  obtain ⟨i, a, ha, sealed, hseals, hsame, hsecret⟩ := hunforged opened hsome
  obtain ⟨hhandled, hsource, hdest, hid⟩ := hseals.dispatched hsame hsecret hsome hd
  obtain ⟨-, hhistory⟩ := run_history (hbefore.part i) (hnew i)
  obtain ⟨e', he', encrypt, hdrafted⟩ := hhistory a ha
  have hverb : d.verbId = byteAt d.packet 27 &&& 0x1f := by
    obtain ⟨-, -, -, -, -, -, ⟨hnone, -⟩ | ⟨_, -, -, hverb⟩⟩ := Node.admitPacket_dispatch (Call.dispatched_eq_some.mp hd)
    · rw [hnone] at hsome
      cases hsome
    · exact hverb
  exact ⟨i, hdrafted.source.symm.trans hsource.symm, a, ha, ⟨hhandled, hdest.trans hours, hid⟩, hverb, e', he', encrypt,
    hdrafted⟩

/-! ### Two members -/

section
open SampleFrame

/-- Number 1, which knows number 3 as a member, and number 3. -/
def sampleMembers : Bool → Node
  | true => { Sample.start with
    topology := Sample.start.topology.modifyPeer (SampleFrame.address 3) fun peer =>
      (peer.addPath (Sample.endpoint 30) true 1000).establishSession Sample.primitives (Sample.key 1) 0 1000
    networks := [{ NetworkMembership.new Sample.networkId 2800 with members := [receiverMember] }] }
  | false => receiver

/-- What number 3 hands to its host. -/
def sampleReceived : NodeAction :=
  .frameReceived Sample.networkId (Ethernet.deriveMac (SampleFrame.address 1) Sample.networkId)
    (Ethernet.deriveMac (SampleFrame.address 3) Sample.networkId) Ethernet.ethertypeIpv4 frame

/-- Number 1 sends a frame and number 3 gets it. -/
theorem sampleMembers_run : ∃ (e e' : Entry (Bool → Node) (Bool × Event) Output) (nodes : Bool → Node),
    NetRun Sample.primitives sampleMembers ([e] ++ e' :: []) nodes ∧
    (∀ c ∈ e'.output.calls, Unforged Sample.primitives e'.before c) ∧
      ∃ c ∈ e'.output.calls, c.actions = [sampleReceived] ∧ (c.dispatched Sample.primitives).isSome ∧
        (c.before.dearmor Sample.primitives c.data).isSome ∧ e'.output.calls.length = 1 := by
  have hcheck : okWith (together (fun _ => step Sample.primitives) sampleMembers
      (true, .outboundFrame Sample.networkId Ethernet.ethertypeIpv4 frame 2000)) (fun r =>
        okWith (together (fun _ => step Sample.primitives) r.1
          (false, .receive ((Vl2.datagrams r.2.actions).headD []) (Sample.endpoint 10) 2001)) fun r' =>
            r'.2.calls.length = 1 && r'.2.calls.all fun c => c.actions = [sampleReceived] &&
              (c.dispatched Sample.primitives).isSome && (c.before.dearmor Sample.primitives c.data).isSome &&
              (r.1 true).armored.any fun a => Salsa.cipherSuite a.packet = 1 &&
                okWith (Salsa.armorPacket Sample.primitives a.secret a.packet true) (fun sealed => sealed = c.data) &&
                c.before.sharedSecretForPeer Sample.primitives (PacketHeader.read c.data).source = some a.secret) = true := by
    decide +kernel
  obtain ⟨⟨nodes₁, o₁⟩, hsend, hcheck⟩ := exists_of_okWith hcheck
  obtain ⟨⟨nodes₂, o₂⟩, hreceive, hcheck⟩ := exists_of_okWith hcheck
  simp only [Bool.and_eq_true, decide_eq_true_eq, List.all_eq_true, List.any_eq_true] at hcheck
  obtain ⟨hone, hall⟩ := hcheck
  refine ⟨_, _, nodes₂, (Run.one hsend).snoc hreceive, ?_, ?_⟩
  · intro c hc opened _
    obtain ⟨-, a, ha, ⟨hsuite, harmor⟩, hsecret⟩ := hall c hc
    obtain ⟨sealed, hsealed, hdata⟩ := exists_of_okWith harmor
    obtain rfl : sealed = c.data := of_decide_eq_true hdata
    exact ⟨true, a, ha, c.data, ⟨true, hsuite, hsealed⟩, .refl _, hsecret⟩
  · obtain ⟨c, hc⟩ := List.length_eq_one_iff.mp hone
    have hmem : c ∈ o₂.calls := by rw [hc]; exact List.mem_cons_self
    obtain ⟨⟨⟨hactions, hdispatched⟩, hopened⟩, -⟩ := hall c hmem
    exact ⟨c, hmem, hactions, hdispatched, hopened, hone⟩

end

/-- **Whatever is done to the network, a packet that a node opens and handles was built by
the node it names as its source, for this node, and it says what that node had it say.** -/
theorem run_origin (hrun : NetRun pr nodes (earlier ++ e :: later) nodes') (hnew : ∀ i, (nodes i).armored = [])
    (hunforged : ∀ c ∈ e.output.calls, Unforged pr e.before c) :
    ∀ c ∈ e.output.calls, ∀ d, c.dispatched pr = some d → (c.before.dearmor pr c.data).isSome →
      ∃ i, (nodes i).address = d.source ∧ ∃ a ∈ (e.before i).armored, a.handled pr = some (d.packet.drop 27) ∧
        (PacketHeader.read a.packet).dest = (nodes e.event.1).address ∧
        (PacketHeader.read a.packet).packetId = d.packetId := by
  intro c hc d hd hopened
  obtain ⟨i, hi, a, ha, hsays, -⟩ := drafted_of_dispatched hrun hnew hc (hunforged c hc) hd hopened
  exact ⟨i, hi, a, ha, hsays⟩

/-- What number 3 handles number 1 built. -/
theorem run_origin_two : ∃ (e' : Entry (Bool → Node) (Bool × Event) Output) (c : Call) (d : Dispatch) (i : Bool),
    c ∈ e'.output.calls ∧ c.dispatched Sample.primitives = some d ∧ (sampleMembers i).address = d.source ∧
      ∃ a ∈ (e'.before i).armored, a.handled Sample.primitives = some (d.packet.drop 27) := by
  obtain ⟨e, e', nodes, hrun, hunforged, c, hc, -, hdispatched, hopened, -⟩ := sampleMembers_run
  obtain ⟨d, hd⟩ := Option.isSome_iff_exists.mp hdispatched
  obtain ⟨i, hi, a, ha, hhandled, -⟩ := run_origin hrun (fun i => by cases i <;> rfl) hunforged c hc d hd hopened
  exact ⟨e', c, d, i, hc, hd, hi, a, ha, hhandled⟩

/-- A frame that a node hands to its host out of a packet it opened is one the host of its
sender gave for it, in an earlier step. -/
theorem frame_given (hrun : NetRun pr nodes (earlier ++ e :: later) nodes') (hnew : ∀ i, (nodes i).armored = [])
    (hunforged : ∀ c ∈ e.output.calls, Unforged pr e.before c) {j : ι} {data : Bytes} {fromAddr : SocketAddr} {now : UInt64}
    (hevent : e.event = (j, .receive data fromAddr now)) {networkId : UInt64} {srcMac destMac : Mac} {ethertype : UInt16}
    {payload : Bytes} (hmem : .frameReceived networkId srcMac destMac ethertype payload ∈ e.output.actions) :
    ∃ c ∈ e.output.calls, ∃ d, c.dispatched pr = some d ∧
      Node.frameOf d = some (networkId, .frameReceived networkId srcMac destMac ethertype payload) ∧
      ((c.before.dearmor pr c.data).isSome →
        ∃ i, (nodes i).address = d.source ∧ ∃ e' ∈ earlier, ∃ now,
          e'.event = (i, .outboundFrame networkId ethertype payload now) ∧
          ∃ network, (e'.before i).findNetwork networkId = some network ∧ ∃ member ∈ network.members,
            member.ztAddress = (nodes j).address ∧ srcMac = network.ourMac d.source ∧ destMac = member.mac) := by
  obtain ⟨hbefore, hstep⟩ := hrun.cut
  obtain ⟨hlocal, -⟩ := together_eq_ok hstep
  have haccount : Call.Account pr e.output.calls e.output.actions := by
    have hreceive : step pr e.part.before (.receive data fromAddr now) = .ok (e.part.after, e.part.output) := by
      rw [show Event.receive data fromAddr now = e.part.event by rw [Entry.part, hevent]]
      exact hlocal
    obtain ⟨r, hr, -, hout⟩ := step_receive hreceive
    have hsame : e.output = ⟨r.actions, r.calls⟩ := hout
    rw [hsame]
    exact (Node.receiveFuel_account hr).2.1
  obtain ⟨c', hc', d, networkId', hd, hframeOf, -⟩ := haccount _ hmem rfl
  obtain rfl := Node.frameOf_network hframeOf
  refine ⟨c', hc', d, hd, hframeOf, fun hopened => ?_⟩
  obtain ⟨i, hi, a, ha, ⟨hhandled, hdest, -⟩, hverb, part, hpart, encrypt, hdrafted⟩ :=
    drafted_of_dispatched hrun hnew hc' (hunforged c' hc') hd hopened
  have hbuilt := a.verbId_handled hhandled hverb
  have hframe : FrameGiven part a.packet := by
    rcases hdrafted.frameOf hbuilt (by rw [hframeOf]; rfl) with hframe | ⟨_, _, _, _, _, _, -, hgrant⟩
    · exact hframe
    · rw [hgrant.frameOf hbuilt] at hframeOf
      cases hframeOf
  obtain ⟨given, ethertype', payload', now, hgiven, network, packetId, member, hmember, hnetwork, hpacket⟩ := hframe
  obtain ⟨e', he', rfl, rfl⟩ := mem_stepsOf.mp hpart
  have hsent := Node.frameOf_extFrame hpacket hhandled hverb
  rw [hframeOf] at hsent
  obtain ⟨-, hframe⟩ := Prod.mk.inj (Option.some.inj hsent)
  obtain ⟨hid, rfl, rfl, rfl, rfl⟩ := NodeAction.frameReceived.inj hframe
  have hsource : e'.part.before.address = d.source := by
    rw [← hi, ← hdrafted.source, hpacket, encryptedVerbPacket, read_plainHeader]
  have hto : member.ztAddress = (nodes j).address := by
    rw [show j = e.event.1 by rw [hevent], ← hdest, hpacket, encryptedVerbPacket, read_plainHeader]
  have hsame : network.networkId = given := by simpa using List.find?_some hnetwork
  refine ⟨_, hi, e', he', now, ?_, network, ?_, member, hmember, hto, ?_, rfl⟩
  · exact Prod.ext rfl (by rw [hid, hsame]; exact hgiven)
  · rw [hid, hsame]
    exact hnetwork
  · rw [← hsource]

end Service

end ManyTier
