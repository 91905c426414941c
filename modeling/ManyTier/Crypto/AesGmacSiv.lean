import ManyTier.Crypto.Salsa

/-! Packet armor of cipher suite 3.

A GMAC over the clear payload is shortened to eight bytes, put beside the packet id
and encrypted with it as one block; that block, with one bit cleared, starts the
counter the payload is encrypted under. `dearmorPacket_armorPacket` is the round trip,
for block decryption that inverts block encryption. -/
namespace ManyTier.AesGmacSiv
variable (pr : Primitives)

/-- The 16-byte blocks of `data`, the last one padded with zeros. -/
def paddedBlocks (data : Bytes) : List (ByteVec 16) :=
  (List.range ((data.length + 15) / 16)).map fun i => fieldAt 16 data (16 * i)

def xorBytes (a b : Bytes) : Bytes := List.zipWith (· ^^^ ·) a b

/-- The bit count of the final block: the padded length of the additional data and
the plain length of the payload. -/
def combinedBits (aad data : Bytes) : UInt64 :=
  UInt64.ofNat ((aad.length + 15) / 16 * 16 + data.length) * 8

def gmacCompute (k0 : ByteVec 32) (iv : ByteVec 8) (aad data : Bytes) : ByteVec 16 :=
  let h := pr.aesEncrypt k0 (ByteVec.zero 16)
  let lenBlock := ByteVec.ofBytes 16 (be64 (combinedBits aad data))
  let ghash := pr.ghash h (paddedBlocks aad ++ paddedBlocks data ++ [lenBlock])
  let j0 := ByteVec.ofBytes 16 (iv.toBytes ++ [0, 0, 0, 0, 0, 0, 0, 1])
  ByteVec.ofBytes 16 (xorBytes ghash.toBytes (pr.aesEncrypt k0 j0).toBytes)

def shortenTag (tag : ByteVec 16) : ByteVec 8 :=
  ByteVec.ofBytes 8 (xorBytes (tag.toBytes.take 8) (tag.toBytes.drop 8))

/-- The counter block `i` blocks after `start`: only the last four bytes count. -/
def counterBlock (start : ByteVec 16) (i : Nat) : ByteVec 16 :=
  let counter := u32At start.toBytes 12 + UInt32.ofNat i
  ByteVec.ofBytes 16 (start.toBytes.take 12 ++ be32 counter)

/-- The tag block with the top bit of its counter cleared. -/
def maskCounter (tag : ByteVec 16) : ByteVec 16 :=
  ByteVec.ofBytes 16 (overwrite tag.toBytes 12 [byteAt tag.toBytes 12 &&& 0x7f])

def ctrStream (k1 : ByteVec 32) (start : ByteVec 16) : Nat → UInt8 := fun i =>
  byteAt (pr.aesEncrypt k1 (counterBlock start (i / 16))).toBytes (i % 16)

/-- The packet id and the MAC field as one block. -/
def tagBlock (packet : Bytes) : ByteVec 16 :=
  ByteVec.ofBytes 16 (packet.take 8 ++ slice packet Salsa.packetMacOffset 8)

def withTag (packet : Bytes) (tag : ByteVec 16) (payload : Bytes) : Bytes :=
  tag.toBytes.take 8 ++ slice packet 8 11 ++ tag.toBytes.drop 8 ++ payload

def armorPacket (k0 k1 : ByteVec 32) (packet aad : Bytes) : Except CryptoError Bytes :=
  if packet.length < Salsa.packetMinLen then .error .tooShort
  else
    let iv : ByteVec 8 := fieldAt 8 packet 0
    let mac := shortenTag (gmacCompute pr k0 iv aad (Salsa.body packet))
    let tag := pr.aesEncrypt k1 (ByteVec.ofBytes 16 (iv.toBytes ++ mac.toBytes))
    .ok (withTag packet tag (xorStream (ctrStream pr k1 (maskCounter tag)) (Salsa.body packet)))

/-- The packet with its payload in the clear, and whether its MAC is right. The
payload is decrypted in either case. -/
def dearmorPacket (k0 k1 : ByteVec 32) (packet aad : Bytes) : Except CryptoError (Bytes × Bool) :=
  if packet.length < Salsa.packetMinLen then .error .tooShort
  else
    let encrypted := tagBlock packet
    let tag := pr.aesDecrypt k1 encrypted
    let iv : ByteVec 8 := fieldAt 8 tag.toBytes 0
    let mac : ByteVec 8 := fieldAt 8 tag.toBytes 8
    let clear := xorStream (ctrStream pr k1 (maskCounter encrypted)) (Salsa.body packet)
    let computed := shortenTag (gmacCompute pr k0 iv aad clear)
    .ok (packet.take Salsa.packetVerbOffset ++ clear, decide (computed = mac))

/-! ### The counter loop -/

/-- The next counter block: the last four bytes go up by one and wrap. -/
def nextCounter (counter : ByteVec 16) : ByteVec 16 :=
  ByteVec.ofBytes 16 (counter.toBytes.take 12 ++ be32 (u32At counter.toBytes 12 + 1))

/-- Chunk by chunk of 16 bytes, the last one possibly shorter, each with its own counter. -/
def aesCtrEncrypt (k1 : ByteVec 32) : Nat → ByteVec 16 → Bytes → Bytes
  | 0, _, _ => []
  | chunks + 1, counter, data =>
    xorBytes (data.take 16) (pr.aesEncrypt k1 counter).toBytes ++
      aesCtrEncrypt k1 chunks (nextCounter counter) (data.drop 16)

theorem toBytes_counter (front : Bytes) (counter : UInt32) (hfront : front.length = 12) :
    (ByteVec.ofBytes 16 (front ++ be32 counter)).toBytes = front ++ be32 counter := by
  rw [ByteVec.toBytes_ofBytes _ _ (by simp [hfront])]
  exact List.take_of_length_le (by simp [hfront])

theorem counterBlock_zero (start : ByteVec 16) : counterBlock start 0 = start := by
  have hsplit : start.toBytes.take 12 ++ start.toBytes.drop 12 = start.toBytes := List.take_append_drop ..
  have hlen : (start.toBytes.drop 12).length = 4 := by simp
  have hcounter : be32 (u32At start.toBytes 12) = start.toBytes.drop 12 := by
    rw [u32At, slice, List.take_of_length_le (by omega), ofBe32, be32]
    have hlt := ofBe_lt (start.toBytes.drop 12)
    rw [hlen] at hlt
    rw [UInt32.toNat_ofNat_of_lt' (by simpa [UInt32.size] using hlt), ← hlen, toBe_ofBe]
  apply ByteVec.toBytes_injective
  have hzero : u32At start.toBytes 12 + UInt32.ofNat 0 = u32At start.toBytes 12 := UInt32.add_zero _
  simp only [counterBlock, hzero, hcounter, hsplit, ByteVec.ofBytes_toBytes]

theorem counterBlock_succ (start : ByteVec 16) (i : Nat) :
    counterBlock start (i + 1) = counterBlock (nextCounter start) i := by
  have hfront : (start.toBytes.take 12).length = 12 := by simp
  have hnext : (nextCounter start).toBytes = start.toBytes.take 12 ++ be32 (u32At start.toBytes 12 + 1) :=
    toBytes_counter _ _ hfront
  have htake : (nextCounter start).toBytes.take 12 = start.toBytes.take 12 := by
    rw [hnext]
    exact List.take_left' hfront
  have hcounter : u32At (nextCounter start).toBytes 12 = u32At start.toBytes 12 + 1 := by
    rw [hnext, u32At_append (by omega), hfront]
    exact u32At_be32_last (u32At start.toBytes 12 + 1)
  have hadd : UInt32.ofNat (i + 1) = 1 + UInt32.ofNat i := by
    rw [Nat.add_comm, UInt32.ofNat_add]
    rfl
  simp only [counterBlock, htake, hcounter, hadd, UInt32.add_assoc]

theorem xorBytes_block (data : Bytes) (block : ByteVec 16) (h : data.length ≤ 16) :
    xorBytes data block.toBytes = xorStream (byteAt block.toBytes) data := by
  apply List.ext_getElem (by simp [xorBytes]; omega)
  intro i h₁ h₂
  have hi : i < block.toBytes.length := by simp [xorBytes] at h₁; simp; omega
  simp [xorBytes, xorStream, byteAt, List.getElem?_eq_getElem hi]

/-- The loop combines the data with the stream of the counter blocks. -/
theorem aesCtrEncrypt_eq (k1 : ByteVec 32) (chunks : Nat) (start : ByteVec 16) (data : Bytes)
    (h : data.length ≤ 16 * chunks) :
    aesCtrEncrypt pr k1 chunks start data = xorStream (ctrStream pr k1 start) data := by
  induction chunks generalizing start data with
  | zero =>
    obtain rfl : data = [] := List.length_eq_zero_iff.mp (by omega)
    rfl
  | succ chunks ih =>
    rw [aesCtrEncrypt, ih _ _ (by simp; omega), xorBytes_block _ _ (by simp)]
    conv_rhs => rw [← List.take_append_drop 16 data, xorStream_append]
    congr 1
    · refine xorStream_congr fun i hi => ?_
      have hi16 : i < 16 := by simp at hi; omega
      rw [ctrStream, Nat.div_eq_of_lt hi16, Nat.mod_eq_of_lt hi16, counterBlock_zero]
    · refine xorStream_congr fun i hi => ?_
      have hlen : (data.take 16).length = 16 := by simp at hi ⊢; omega
      rw [hlen, ctrStream, ctrStream, Nat.add_comm 16 i, Nat.add_div_right _ (by decide), Nat.add_mod_right,
        counterBlock_succ]

/-! ### The round trip -/

/-- Block decryption inverts block encryption. -/
def BlockInverts (pr : Primitives) : Prop :=
  ∀ key block, pr.aesDecrypt key (pr.aesEncrypt key block) = block

section
variable (packet payload : Bytes) (tag : ByteVec 16) (hlen : Salsa.packetMinLen ≤ packet.length)
include hlen

theorem length_slice_header : (slice packet 8 11).length = 11 := by
  simp only [Salsa.packetMinLen] at hlen
  simp [slice]
  omega

theorem length_withTag : (withTag packet tag payload).length = 27 + payload.length := by
  have hheader := length_slice_header packet hlen
  simp [withTag, hheader]
  omega

theorem body_withTag : Salsa.body (withTag packet tag payload) = payload := by
  have hheader := length_slice_header packet hlen
  apply List.drop_left'
  simp [Salsa.packetVerbOffset, hheader]

theorem slice_withTag : slice (withTag packet tag payload) 8 11 = slice packet 8 11 := by
  have hheader := length_slice_header packet hlen
  rw [withTag, List.append_assoc, List.append_assoc, slice_append_right _ _ _ _ (by simp)]
  simp [hheader]

theorem tagBlock_withTag : tagBlock (withTag packet tag payload) = tag := by
  have hheader := length_slice_header packet hlen
  have hfront : (withTag packet tag payload).take 8 = tag.toBytes.take 8 := by
    rw [withTag, List.append_assoc, List.append_assoc]
    exact List.take_left' (by simp)
  have hback : slice (withTag packet tag payload) Salsa.packetMacOffset 8 = tag.toBytes.drop 8 := by
    rw [withTag, List.append_assoc, slice_append_right _ _ _ _ (by simp [Salsa.packetMacOffset, hheader])]
    simp [Salsa.packetMacOffset, hheader]
  rw [tagBlock, hfront, hback, List.take_append_drop, ByteVec.ofBytes_toBytes]

end

theorem toBytes_tag (iv mac : ByteVec 8) :
    (ByteVec.ofBytes 16 (iv.toBytes ++ mac.toBytes)).toBytes = iv.toBytes ++ mac.toBytes := by
  rw [ByteVec.toBytes_ofBytes _ _ (by simp)]
  exact List.take_of_length_le (by simp)

/-- A packet that arrives with the tag block and the payload it was sent with is opened,
and its MAC is right. -/
theorem dearmorPacket_armorPacket (hinv : BlockInverts pr) (k0 k1 : ByteVec 32) (packet aad : Bytes)
    (hlen : Salsa.packetMinLen ≤ packet.length) :
    ∃ sealed, armorPacket pr k0 k1 packet aad = .ok sealed ∧ sealed.length = packet.length ∧
      slice sealed 8 11 = slice packet 8 11 ∧
      ∀ received : Bytes, received.length = sealed.length → tagBlock received = tagBlock sealed →
        Salsa.body received = Salsa.body sealed →
        dearmorPacket pr k0 k1 received aad =
          .ok (received.take Salsa.packetVerbOffset ++ Salsa.body packet, true) := by
  set iv : ByteVec 8 := fieldAt 8 packet 0 with hiv
  set mac := shortenTag (gmacCompute pr k0 iv aad (Salsa.body packet)) with hmac
  set tag := pr.aesEncrypt k1 (ByteVec.ofBytes 16 (iv.toBytes ++ mac.toBytes)) with htag
  set payload := xorStream (ctrStream pr k1 (maskCounter tag)) (Salsa.body packet) with hpayload
  have hbodylen : payload.length = packet.length - 27 := by
    simp [hpayload, Salsa.body, Salsa.packetVerbOffset]
  have hsealedlen : (withTag packet tag payload).length = packet.length := by
    have h28 : 28 ≤ packet.length := hlen
    rw [length_withTag packet payload tag hlen, hbodylen]
    omega
  refine ⟨withTag packet tag payload, ?_, hsealedlen, slice_withTag packet payload tag hlen, ?_⟩
  · rw [armorPacket, if_neg (Nat.not_lt.mpr hlen)]
  intro received hreceived htagBlock hbody
  rw [tagBlock_withTag packet payload tag hlen] at htagBlock
  rw [body_withTag packet payload tag hlen] at hbody
  -- The tag block decrypts to the packet id and the MAC, and its counter is the sender's.
  have hdecrypted : (pr.aesDecrypt k1 tag).toBytes = iv.toBytes ++ mac.toBytes := by
    rw [htag, hinv, toBytes_tag]
  have hivField : (fieldAt 8 (pr.aesDecrypt k1 tag).toBytes 0 : ByteVec 8) = iv := by
    rw [hdecrypted]
    exact fieldAt_append [] iv mac.toBytes 0 rfl
  have hmacField : (fieldAt 8 (pr.aesDecrypt k1 tag).toBytes 8 : ByteVec 8) = mac := by
    rw [hdecrypted]
    simpa using fieldAt_append iv.toBytes mac [] 8 (by simp)
  have hclear : xorStream (ctrStream pr k1 (maskCounter tag)) payload = Salsa.body packet := by
    rw [hpayload, xorStream_xorStream]
  have hlong : ¬ received.length < Salsa.packetMinLen := by omega
  simp only [dearmorPacket, if_neg hlong, htagBlock, hbody, hivField, hmacField, hclear, ← hmac,
    decide_true]

end ManyTier.AesGmacSiv
