import ManyTier.Crypto.AesGmacSiv
import ManyTier.Crypto.Sample
import ManyTier.Lib.Run
import ManyTier.Node.Admission

/-! What a packet goes through on its way.

A relay counts a hop in three bits of the flags byte and passes the rest on as it
came (`SameButHops`). Neither armor reads those bits: the key of cipher suites 0 and 1
and the additional data of suite 3 are made without them, so a packet is opened behind
any number of relays as it would have been in front of them. -/
namespace ManyTier

/-- The addresses lie in the first 18 bytes. -/
theorem slice_addresses (packet : Bytes) : slice packet 8 10 = (packet.take 18).drop 8 := by
  rw [slice, List.drop_take]

/-- The addresses and the flags byte behind them. -/
theorem slice_addresses_flags {a b : Bytes} (h : slice a 8 11 = slice b 8 11) :
    slice a 8 10 = slice b 8 10 ∧ byteAt a 18 = byteAt b 18 := by
  have hslice : ∀ c : Bytes, slice c 8 10 = (slice c 8 11).take 10 := fun c => by
    rw [slice, slice, List.take_take]
    rfl
  have hbyte : ∀ c : Bytes, byteAt c 18 = byteAt (slice c 8 11) 10 := fun c => by
    rw [slice, byteAt_take _ _ _ (by decide), byteAt, byteAt, List.getD_eq_getElem?_getD,
      List.getD_eq_getElem?_getD, List.getElem?_drop]
  rw [hslice, hbyte, h, ← hslice, ← hbyte]
  exact ⟨rfl, rfl⟩

/-- Packets that differ in the hop count only. -/
structure SameButHops (a b : Bytes) : Prop where
  length : b.length = a.length
  front : b.take 18 = a.take 18
  flags : byteAt b 18 &&& 0xf8 = byteAt a 18 &&& 0xf8
  back : b.drop 19 = a.drop 19

namespace SameButHops

theorem refl (a : Bytes) : SameButHops a a := ⟨rfl, rfl, rfl, rfl⟩

theorem trans {a b c : Bytes} (h : SameButHops a b) (h' : SameButHops b c) : SameButHops a c :=
  ⟨h'.length.trans h.length, h'.front.trans h.front, h'.flags.trans h.flags, h'.back.trans h.back⟩

variable {a b : Bytes} (h : SameButHops a b)
include h

theorem fieldAt_front (n off : Nat) (hn : off + n ≤ 18) : fieldAt n b off = fieldAt n a off := by
  rw [← fieldAt_take n b 18 off hn, h.front, fieldAt_take n a 18 off hn]

theorem drop_back (off : Nat) (hoff : 19 ≤ off) : b.drop off = a.drop off := by
  obtain ⟨k, rfl⟩ := Nat.exists_eq_add_of_le hoff
  rw [← List.drop_drop, h.back, List.drop_drop]

theorem body : Salsa.body b = Salsa.body a := h.drop_back _ (by decide)

theorem keystreamInput : Salsa.keystreamInput b = Salsa.keystreamInput a := by
  simp only [Salsa.keystreamInput, h.fieldAt_front 8 0 (by decide),
    h.fieldAt_front 5 Salsa.packetDestOffset (by decide),
    h.fieldAt_front 5 Salsa.packetSourceOffset (by decide), h.length]
  rw [Salsa.packetFlagsOffset, h.flags]

theorem savedMac : Salsa.savedMac b = Salsa.savedMac a := by
  rw [Salsa.savedMac, Salsa.savedMac, fieldAt, fieldAt, h.drop_back _ (by decide)]

theorem cipherSuite : Salsa.cipherSuite b = Salsa.cipherSuite a := by
  have hmask : ∀ x : UInt8, (x >>> (3 : UInt8)) &&& (0x07 : UInt8) =
      ((x &&& (0xf8 : UInt8)) >>> (3 : UInt8)) &&& (0x07 : UInt8) := forall_byte (by decide +kernel)
  rw [Salsa.cipherSuite, Salsa.cipherSuite, hmask, Salsa.packetFlagsOffset, h.flags, ← hmask]

theorem macVerifies (pr : Primitives) (secret : Secret) :
    Salsa.macVerifies pr secret b = Salsa.macVerifies pr secret a := by
  rw [Salsa.macVerifies, Salsa.macVerifies, Salsa.keystream_eq pr secret h.keystreamInput, h.body, h.savedMac]

/-- Both with another payload. -/
theorem replaceBody (hlen : Salsa.packetMinLen ≤ a.length) (payload : Bytes) :
    SameButHops (a.take Salsa.packetVerbOffset ++ payload) (b.take Salsa.packetVerbOffset ++ payload) := by
  have hlength := h.length
  have h28 : 28 ≤ a.length := hlen
  have htakelen : ∀ c : Bytes, 28 ≤ c.length → (c.take Salsa.packetVerbOffset).length = 27 := fun c hc => by
    simp [Salsa.packetVerbOffset]
    omega
  have ha := htakelen a h28
  have hb := htakelen b (by omega)
  refine ⟨by simp [ha, hb], ?_, ?_, ?_⟩
  · rw [List.take_append_of_le_length (by omega), List.take_append_of_le_length (by omega), List.take_take,
      List.take_take]
    exact h.front
  · rw [byteAt_append_left _ _ _ (by omega), byteAt_append_left _ _ _ (by omega),
      byteAt_take _ _ _ (by decide), byteAt_take _ _ _ (by decide)]
    exact h.flags
  · rw [List.drop_append_of_le_length (by omega), List.drop_append_of_le_length (by omega), List.drop_take,
      List.drop_take, h.back]

/-- The additional data of suite 3 is made of what relays leave alone. -/
theorem buildAesAad : Node.buildAesAad b = Node.buildAesAad a := by
  have hslice : slice b 8 10 = slice a 8 10 := by rw [slice_addresses, h.front, slice_addresses]
  rw [Node.buildAesAad, Node.buildAesAad, hslice, h.flags]

theorem tagBlock : AesGmacSiv.tagBlock b = AesGmacSiv.tagBlock a := by
  have hfront : b.take 8 = a.take 8 := by
    have htake : ∀ c : Bytes, c.take 8 = (c.take 18).take 8 := fun c => by rw [List.take_take]; rfl
    rw [htake, h.front, ← htake]
  rw [AesGmacSiv.tagBlock, AesGmacSiv.tagBlock, hfront, slice, slice,
    h.drop_back Salsa.packetMacOffset (by decide)]

end SameButHops

namespace Switch

/-- One relay passes the packet on with one hop more than it came with, and no more
than the most there may be. -/
theorem incrementHops_some {packet next : Bytes} (h : incrementHops packet = some next) :
    SameButHops packet next ∧ (byteAt next 18 &&& 0x07).toNat = (byteAt packet 18 &&& 0x07).toNat + 1 ∧
      (byteAt next 18 &&& 0x07).toNat ≤ Constants.relayMaxHops.toNat := by
  unfold incrementHops at h
  split at h
  · cases h
  · rename_i hlen
    simp only at h
    split at h
    · cases h
    · rename_i hhops
      obtain rfl := Option.some.inj h
      have hat : byteAt (packet.set 18 ((byteAt packet 18 &&& 0xf8) ||| ((byteAt packet 18 &&& 0x07) + 1))) 18 =
          (byteAt packet 18 &&& 0xf8) ||| ((byteAt packet 18 &&& 0x07) + 1) := by
        have h18 : 18 < packet.length := by omega
        simp [byteAt, h18]
      have hbits : ∀ x : UInt8, ¬ Constants.relayMaxHops ≤ x &&& 0x07 →
          ((x &&& 0xf8) ||| ((x &&& 0x07) + 1)) &&& 0xf8 = x &&& 0xf8 ∧
          (((x &&& 0xf8) ||| ((x &&& 0x07) + 1)) &&& 0x07).toNat = (x &&& 0x07).toNat + 1 ∧
          (((x &&& 0xf8) ||| ((x &&& 0x07) + 1)) &&& 0x07).toNat ≤ Constants.relayMaxHops.toNat :=
        forall_byte (by decide +kernel)
      obtain ⟨hflags, hnext, hmax⟩ := hbits _ hhops
      rw [hat]
      refine ⟨⟨by simp, ?_, by rw [hat]; exact hflags, ?_⟩, hnext, hmax⟩
      · rw [List.take_set_of_le (Nat.le_refl _)]
      · rw [List.drop_set_of_lt (by decide)]

/-- A packet behind a number of relays, each of which passed it on. -/
def relayed : Nat → Bytes → Option Bytes
  | 0, packet => some packet
  | relays + 1, packet => (incrementHops packet).bind (relayed relays)

theorem relayed_some (relays : Nat) {packet arrived : Bytes} (h : relayed relays packet = some arrived) :
    SameButHops packet arrived ∧
      (byteAt arrived 18 &&& 0x07).toNat = (byteAt packet 18 &&& 0x07).toNat + relays ∧
      (0 < relays → (byteAt arrived 18 &&& 0x07).toNat ≤ Constants.relayMaxHops.toNat) := by
  induction relays generalizing packet with
  | zero =>
    obtain rfl := Option.some.inj h
    exact ⟨.refl _, rfl, fun hpos => absurd hpos (by omega)⟩
  | succ relays ih =>
    obtain ⟨next, hnext, harrived⟩ := Option.bind_eq_some_iff.mp h
    obtain ⟨hsame, hcount, hmax⟩ := incrementHops_some hnext
    obtain ⟨hsame', hcount', hmax'⟩ := ih harrived
    refine ⟨hsame.trans hsame', by omega, fun _ => ?_⟩
    rcases Nat.eq_zero_or_pos relays with hzero | hpos
    · omega
    · exact hmax' hpos

/-- However many relays there are, no more than the most pass a packet on. -/
theorem relays_le (relays : Nat) {packet arrived : Bytes} (h : relayed relays packet = some arrived) :
    relays ≤ Constants.relayMaxHops.toNat := by
  obtain ⟨-, hcount, hmax⟩ := relayed_some relays h
  rcases Nat.eq_zero_or_pos relays with hzero | hpos
  · omega
  · have := hmax hpos
    omega

end Switch

namespace Salsa

/-- `dearmorPacket` on the buffer it is given: what it returns, and the buffer after it. -/
def dearmorInPlace (pr : Primitives) (sharedSecret : Secret) (packet : Bytes) :
    Except CryptoError Unit × Bytes :=
  if packet.length < packetMinLen then (.error .invalidFormat, packet)
  else if ! macVerifies pr sharedSecret packet then (.error .macVerificationFailed, packet)
  else
    let ks := stream pr (mangleKey sharedSecret packet packet.length) packet
    let packet := if cipherSuite packet = 1 then
        packet.take packetVerbOffset ++ xorStream (payloadStream ks) (body packet)
      else packet
    (.ok (), packet)

/-- The two forms agree, and an error leaves the buffer as it was. -/
theorem dearmorInPlace_eq (pr : Primitives) (sharedSecret : Secret) (packet : Bytes) :
    dearmorInPlace pr sharedSecret packet =
      match dearmorPacket pr sharedSecret packet with
      | .ok opened => (.ok (), opened)
      | .error e => (.error e, packet) := by
  unfold dearmorInPlace dearmorPacket
  split
  · rfl
  · split
    · rfl
    · by_cases hsuite : cipherSuite packet = 1 <;> simp [hsuite]

/-- A packet opened behind relays is the one opened in front of them, but for the hops. -/
theorem dearmorPacket_sameButHops (pr : Primitives) (sharedSecret : Secret) {a b opened : Bytes}
    (h : SameButHops a b) (hopen : dearmorPacket pr sharedSecret a = .ok opened) :
    ∃ opened', dearmorPacket pr sharedSecret b = .ok opened' ∧ SameButHops opened opened' := by
  unfold dearmorPacket at hopen ⊢
  rw [keystream_eq pr sharedSecret h.keystreamInput, h.length, h.macVerifies, h.cipherSuite, h.body]
  split at hopen
  · cases hopen
  · rename_i hlen
    rw [if_neg hlen]
    split at hopen
    · cases hopen
    · rename_i hmac
      rw [if_neg hmac]
      split at hopen
      · rename_i hsuite
        rw [if_pos hsuite]
        obtain rfl := Except.ok.inj hopen
        exact ⟨_, rfl, h.replaceBody (Nat.le_of_not_lt hlen) _⟩
      · rename_i hsuite
        rw [if_neg hsuite]
        obtain rfl := Except.ok.inj hopen
        exact ⟨_, rfl, h⟩

theorem take_withMac (packet : Bytes) (mac : ByteVec 8) (hlen : packetMinLen ≤ packet.length) :
    (withMac packet mac).take 19 = packet.take 19 := by
  have h28 : 28 ≤ packet.length := hlen
  exact List.take_left' (by simp [packetMacOffset]; omega)

theorem drop_withMac (packet : Bytes) (mac : ByteVec 8) (hlen : packetMinLen ≤ packet.length) :
    (withMac packet mac).drop 27 = packet.drop 27 := by
  have h28 : 28 ≤ packet.length := hlen
  rw [withMac, ← List.append_assoc]
  exact List.drop_left' (by simp [packetMacOffset]; omega)

/-- Armored, passed on by relays and opened with the same secret, a packet is what it
was but for its MAC field and its hop count; no more than the most relays pass it on;
and a packet that is not opened is left as it is. -/
theorem dearmor_relayed (pr : Primitives) (sharedSecret : Secret) (packet : Bytes) (encryptPayload : Bool)
    (hlen : packetMinLen ≤ packet.length)
    (hsuite : cipherSuite packet = if encryptPayload then 1 else 0) :
    (∃ sealed, armorPacket pr sharedSecret packet encryptPayload = .ok sealed ∧
      ∀ relays arrived, Switch.relayed relays sealed = some arrived →
        relays ≤ Constants.relayMaxHops.toNat ∧
        ∃ opened, dearmorInPlace pr sharedSecret arrived = (.ok (), opened) ∧
          opened.take 18 = packet.take 18 ∧ opened.drop 27 = packet.drop 27 ∧
          byteAt opened 18 &&& 0xf8 = byteAt packet 18 &&& 0xf8) ∧
    ∀ data buffer e, dearmorInPlace pr sharedSecret data = (.error e, buffer) → buffer = data := by
  constructor
  · have hencrypt : encryptPayload = true ↔ cipherSuite packet = 1 := by
      rw [hsuite]
      cases encryptPayload <;> simp
    obtain ⟨sealed, mac, harmor, -, -, -, hopen⟩ :=
      dearmorPacket_armorPacket pr sharedSecret packet encryptPayload hlen hencrypt
    refine ⟨sealed, harmor, fun relays arrived hrelayed => ⟨Switch.relays_le relays hrelayed, ?_⟩⟩
    obtain ⟨hsame, -, -⟩ := Switch.relayed_some relays hrelayed
    obtain ⟨opened, hopened, hafter⟩ := dearmorPacket_sameButHops pr sharedSecret hsame hopen
    have hfront := take_withMac packet mac hlen
    refine ⟨opened, by rw [dearmorInPlace_eq, hopened], ?_, ?_, ?_⟩
    · rw [hafter.front]
      have htake : ∀ c : Bytes, c.take 18 = (c.take 19).take 18 := fun c => by rw [List.take_take]; rfl
      rw [htake, hfront, ← htake]
    · rw [hafter.drop_back 27 (by decide), drop_withMac packet mac hlen]
    · rw [hafter.flags, ← byteAt_take _ 19 18 (by decide), hfront, byteAt_take _ _ _ (by decide)]
  · intro data buffer e h
    rw [dearmorInPlace_eq] at h
    split at h
    · cases h
    · exact (Prod.mk.inj h).2.symm

/-- An encrypted packet that two relays have passed on before it is armored. -/
def samplePacket : Bytes :=
  [0, 0, 0, 0, 0, 0, 0, 9, 10, 0, 0, 0, 1, 10, 0, 0, 0, 2, 0x0a, 0, 0, 0, 0, 0, 0, 0, 0, 0x05, 0x68, 0x69]

/-- One more relay passes it on, and it is opened there. -/
theorem dearmor_relayed_once : ∃ sealed arrived opened,
    armorPacket Sample.primitives (ByteVec.zero 48) samplePacket true = .ok sealed ∧
    Switch.relayed 1 sealed = some arrived ∧ arrived ≠ sealed ∧
    dearmorInPlace Sample.primitives (ByteVec.zero 48) arrived = (.ok (), opened) ∧
    opened.drop 27 = [0x05, 0x68, 0x69] := by
  have hcheck : okWith (armorPacket Sample.primitives (ByteVec.zero 48) samplePacket true) (fun sealed =>
      (Switch.relayed 1 sealed).any fun arrived => arrived ≠ sealed) = true := by
    decide
  obtain ⟨sealed, harmor, hany⟩ := exists_of_okWith hcheck
  obtain ⟨arrived, harrived, hne⟩ := (Option.any_eq_true ..).mp hany
  obtain ⟨sealed', harmor', hopen⟩ :=
    (dearmor_relayed Sample.primitives (ByteVec.zero 48) samplePacket true (by decide) (by decide)).1
  obtain rfl : sealed' = sealed := Except.ok.inj (harmor'.symm.trans harmor)
  obtain ⟨-, opened, hopened, -, hpayload, -⟩ := hopen 1 arrived harrived
  exact ⟨sealed', arrived, opened, harmor, harrived, by simpa using hne, hopened, hpayload⟩

end Salsa

namespace AesGmacSiv

/-- A packet opened behind relays is the one opened in front of them, but for the hops, and
its MAC is right if it was. -/
theorem dearmorPacket_sameButHops (pr : Primitives) (k0 k1 : ByteVec 32) {a b opened : Bytes} {verified : Bool}
    (h : SameButHops a b) (hopen : dearmorPacket pr k0 k1 a (Node.buildAesAad a) = .ok (opened, verified)) :
    ∃ opened', dearmorPacket pr k0 k1 b (Node.buildAesAad b) = .ok (opened', verified) ∧ SameButHops opened opened' := by
  unfold dearmorPacket at hopen ⊢
  rw [h.length, h.tagBlock, h.body, h.buildAesAad]
  split at hopen
  · cases hopen
  · rename_i hlen
    rw [if_neg hlen]
    obtain ⟨rfl, rfl⟩ := Prod.mk.inj (Except.ok.inj hopen)
    exact ⟨_, rfl, h.replaceBody (Nat.le_of_not_lt hlen) _⟩

/-- Armored with the additional data of its header, a packet is opened with the
additional data of the header it arrives with, whatever became of the hop count: the
MAC is right and everything from the verb on is what was sent. -/
theorem dearmor_hops (pr : Primitives) (hinv : BlockInverts pr) (k0 k1 : ByteVec 32) (packet : Bytes)
    (hlen : Salsa.packetMinLen ≤ packet.length) :
    ∃ sealed, armorPacket pr k0 k1 packet (Node.buildAesAad packet) = .ok sealed ∧
      ∀ received, SameButHops sealed received →
        ∃ opened, dearmorPacket pr k0 k1 received (Node.buildAesAad received) = .ok (opened, true) ∧
          opened.drop 27 = packet.drop 27 ∧ slice opened 8 10 = slice packet 8 10 := by
  obtain ⟨sealed, harmor, hlength, hheader, hopen⟩ :=
    dearmorPacket_armorPacket pr hinv k0 k1 packet (Node.buildAesAad packet) hlen
  have h28 : 28 ≤ packet.length := hlen
  obtain ⟨haddresses, hflags⟩ := slice_addresses_flags hheader
  have haad : Node.buildAesAad sealed = Node.buildAesAad packet := by
    rw [Node.buildAesAad, Node.buildAesAad, haddresses, hflags]
  refine ⟨sealed, harmor, fun received hsame => ?_⟩
  have hreceived := hopen received hsame.length hsame.tagBlock hsame.body
  rw [← haad, ← hsame.buildAesAad] at hreceived
  have hreceivedlen := hsame.length
  have htake : (received.take Salsa.packetVerbOffset).length = 27 := by
    simp [Salsa.packetVerbOffset]
    omega
  refine ⟨_, hreceived, List.drop_left' htake, ?_⟩
  have hfront : (received.take Salsa.packetVerbOffset ++ Salsa.body packet).take 18 = sealed.take 18 := by
    rw [List.take_append_of_le_length (by omega), List.take_take]
    exact hsame.front
  rw [slice_addresses, hfront, ← slice_addresses, haddresses]

theorem blockInverts_sample : BlockInverts Sample.primitives := by
  intro key block
  apply ByteVec.toBytes_injective
  show List.zipWith (· ^^^ ·) (List.zipWith (· ^^^ ·) block.toBytes (ByteVec.ofBytes 16 key.toBytes).toBytes)
    (ByteVec.ofBytes 16 key.toBytes).toBytes = block.toBytes
  apply List.ext_getElem (by simp)
  intro i h₁ h₂
  simp only [List.getElem_zipWith, UInt8.xor_assoc, UInt8.xor_self, UInt8.xor_zero]

/-- A packet that arrives with one hop more than it was sent with. -/
theorem dearmor_hops_one : ∃ sealed received opened,
    armorPacket Sample.primitives (Sample.key 4) (Sample.key 5) Salsa.samplePacket
      (Node.buildAesAad Salsa.samplePacket) = .ok sealed ∧
    Switch.incrementHops sealed = some received ∧ received ≠ sealed ∧
    dearmorPacket Sample.primitives (Sample.key 4) (Sample.key 5) received (Node.buildAesAad received) =
      .ok (opened, true) ∧
    opened.drop 27 = [0x05, 0x68, 0x69] := by
  have hcheck : okWith (armorPacket Sample.primitives (Sample.key 4) (Sample.key 5) Salsa.samplePacket
      (Node.buildAesAad Salsa.samplePacket)) (fun sealed =>
        (Switch.incrementHops sealed).any fun received => received ≠ sealed) = true := by
    decide
  obtain ⟨sealed, harmor, hany⟩ := exists_of_okWith hcheck
  obtain ⟨received, hreceived, hne⟩ := (Option.any_eq_true ..).mp hany
  obtain ⟨sealed', harmor', hopen⟩ := dearmor_hops Sample.primitives blockInverts_sample (Sample.key 4)
    (Sample.key 5) Salsa.samplePacket (by decide)
  obtain rfl : sealed' = sealed := Except.ok.inj (harmor'.symm.trans harmor)
  obtain ⟨opened, hopened, hpayload, -⟩ := hopen received (Switch.incrementHops_some hreceived).1
  exact ⟨sealed', received, opened, harmor, hreceived, by simpa using hne, hopened, hpayload⟩

end AesGmacSiv

end ManyTier
