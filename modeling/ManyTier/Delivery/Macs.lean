import ManyTier.Delivery.Frames

/-! Which member a MAC belongs to.

A MAC is an octet of the network and the address of the member under a mask of the
network, so that the address is found again from it (`addressOfMac_deriveMac`), and a
directory never lists two addresses under one MAC (`deriveMac_identifies`). -/
namespace ManyTier

namespace Ethernet

/-! ### Octets of a word -/

/-- The shifts at which a MAC has an octet. -/
def octetShifts : List UInt64 := [0, 8, 16, 24, 32, 40]

theorem octet_xor (x y s : UInt64) : ((x ^^^ y) >>> s).toUInt8 = (x >>> s).toUInt8 ^^^ (y >>> s).toUInt8 := by
  rw [UInt64.shiftRight_xor, UInt64.toUInt8_xor]

theorem octet_or (x y s : UInt64) : ((x ||| y) >>> s).toUInt8 = (x >>> s).toUInt8 ||| (y >>> s).toUInt8 := by
  rw [UInt64.shiftRight_or, UInt64.toUInt8_or]

/-- An octet that was put at one place is found there, and nowhere else. -/
theorem octet_put (b : UInt8) (put : UInt64) (hput : put ∈ octetShifts) (got : UInt64) (hgot : got ∈ octetShifts) :
    ((b.toUInt64 <<< put) >>> got).toUInt8 = if put = got then b else 0 := by
  have hall : ∀ b : UInt8, (octetShifts.all fun put => octetShifts.all fun got =>
      ((b.toUInt64 <<< put) >>> got).toUInt8 == if put = got then b else 0) = true := forall_byte (by decide +kernel)
  exact eq_of_beq (List.all_eq_true.mp (List.all_eq_true.mp (hall b) put hput) got hgot)

theorem low_octet (x : UInt64) : x &&& 0xff = x.toUInt8.toUInt64 := by
  rw [← UInt64.toNat_inj]
  simp only [UInt64.toNat_and, UInt8.toNat_toUInt64, UInt64.toNat_toUInt8]
  exact Nat.and_two_pow_sub_one_eq_mod x.toNat 8

/-- The octets of an address as a number. -/
theorem octet_ofBe (a b c d e : UInt8) : let w := UInt64.ofNat (ofBe [a, b, c, d, e])
    (w >>> 40).toUInt8 = 0 ∧ (w >>> 32).toUInt8 = a ∧ (w >>> 24).toUInt8 = b ∧ (w >>> 16).toUInt8 = c ∧
      (w >>> 8).toUInt8 = d ∧ (w >>> 0).toUInt8 = e := by
  have ha := a.toNat_lt
  have hb := b.toNat_lt
  have hc := c.toNat_lt
  have hd := d.toNat_lt
  have he := e.toNat_lt
  simp only [← UInt8.toNat_inj, UInt64.toNat_toUInt8, UInt64.toNat_shiftRight, ofBe, List.foldl, UInt64.toNat_ofNat']
  simp [Nat.shiftRight_eq_div_pow]
  omega

/-! ### The parts of a MAC -/

/-- The first octet of all MACs of a network. -/
def firstOctet (networkId : UInt64) : UInt8 :=
  let a := (networkId.toUInt8 &&& 0xfe) ||| 0x02
  if a = 0x52 then 0x32 else a

/-- What the addresses of a network are masked with. -/
def macMask (networkId : UInt64) : Bytes :=
  [(networkId >>> 8).toUInt8, (networkId >>> 16).toUInt8, (networkId >>> 24).toUInt8, (networkId >>> 32).toUInt8,
    (networkId >>> 40).toUInt8]

/-- The address that has a MAC on a network. -/
def addressOfMac (mac : Mac) (networkId : UInt64) : ByteVec 5 :=
  ByteVec.ofBytes 5 (List.zipWith (· ^^^ ·) (mac.toBytes.drop 1) (macMask networkId))

/-- The word of a MAC, with its parts put at their places. -/
def macWord (networkId address : UInt64) : UInt64 :=
  ((firstOctet networkId).toUInt64 <<< 40 ||| address) ^^^ ((networkId >>> 8).toUInt8.toUInt64 <<< 32) ^^^
    ((networkId >>> 16).toUInt8.toUInt64 <<< 24) ^^^ ((networkId >>> 24).toUInt8.toUInt64 <<< 16) ^^^
    ((networkId >>> 32).toUInt8.toUInt64 <<< 8) ^^^ ((networkId >>> 40).toUInt8.toUInt64 <<< 0)

theorem toBytes_deriveMac_word (ztAddress : ByteVec 5) (networkId : UInt64) :
    (deriveMac ztAddress networkId).toBytes =
      ([40, 32, 24, 16, 8, 0] : List UInt64).map fun s =>
        (macWord networkId (UInt64.ofNat (ofBe ztAddress.toBytes)) >>> s).toUInt8 := by
  simp only [deriveMac, firstOctet, low_octet, macWord, List.map_cons, List.map_nil, UInt64.shiftLeft_zero,
    UInt64.shiftRight_zero]
  rfl

/-- The octets of the word: the first one, and those of the address under the mask. -/
theorem octet_macWord (networkId address : UInt64) : ∀ s ∈ octetShifts,
    (macWord networkId address >>> s).toUInt8 = ((if 40 = s then firstOctet networkId else 0) ||| (address >>> s).toUInt8) ^^^
      (if 32 = s then (networkId >>> 8).toUInt8 else 0) ^^^ (if 24 = s then (networkId >>> 16).toUInt8 else 0) ^^^
      (if 16 = s then (networkId >>> 24).toUInt8 else 0) ^^^ (if 8 = s then (networkId >>> 32).toUInt8 else 0) ^^^
      (if 0 = s then (networkId >>> 40).toUInt8 else 0) := by
  intro s hs
  simp only [macWord, octet_xor, octet_or]
  rw [octet_put _ 40 (by decide) s hs, octet_put _ 32 (by decide) s hs, octet_put _ 24 (by decide) s hs,
    octet_put _ 16 (by decide) s hs, octet_put _ 8 (by decide) s hs, octet_put _ 0 (by decide) s hs]

/-- The address is behind the first octet, under the mask. -/
theorem toBytes_deriveMac (ztAddress : ByteVec 5) (networkId : UInt64) :
    (deriveMac ztAddress networkId).toBytes =
      firstOctet networkId :: List.zipWith (· ^^^ ·) ztAddress.toBytes (macMask networkId) := by
  rw [toBytes_deriveMac_word]
  obtain ⟨bytes, hlength⟩ := ztAddress
  match bytes, hlength with
  | [a, b, c, d, e], _ =>
    obtain ⟨h40, h32, h24, h16, h8, h0⟩ := octet_ofBe a b c d e
    simp only [ByteVec.toBytes, List.map_cons, List.map_nil]
    rw [octet_macWord _ _ 40 (by decide), octet_macWord _ _ 32 (by decide), octet_macWord _ _ 24 (by decide),
      octet_macWord _ _ 16 (by decide), octet_macWord _ _ 8 (by decide), octet_macWord _ _ 0 (by decide),
      h40, h32, h24, h16, h8, h0]
    simp [macMask]

theorem length_macMask (networkId : UInt64) : (macMask networkId).length = 5 := rfl

/-- The address is found again. -/
theorem addressOfMac_deriveMac (ztAddress : ByteVec 5) (networkId : UInt64) :
    addressOfMac (deriveMac ztAddress networkId) networkId = ztAddress := by
  have hcancel : ∀ (bytes mask : Bytes), bytes.length = mask.length →
      List.zipWith (· ^^^ ·) (List.zipWith (· ^^^ ·) bytes mask) mask = bytes := by
    intro bytes
    induction bytes with
    | nil => exact fun _ _ => rfl
    | cons b rest ih =>
      intro mask hlength
      cases mask with
      | nil => cases hlength
      | cons m mask =>
        rw [List.zipWith_cons_cons, List.zipWith_cons_cons, ih mask (Nat.succ.inj hlength), UInt8.xor_assoc,
          UInt8.xor_self, UInt8.xor_zero]
  rw [addressOfMac, toBytes_deriveMac, List.drop_succ_cons, List.drop_zero, hcancel _ _ (by simp [length_macMask]),
    ByteVec.ofBytes_toBytes]

theorem firstOctet_form (networkId : UInt64) :
    firstOctet networkId &&& 0x01 = 0 ∧ firstOctet networkId &&& 0x02 = 0x02 ∧ firstOctet networkId ≠ 0x52 := by
  have hall : ∀ b : UInt8, let a := (b &&& 0xfe) ||| 0x02
      let first : UInt8 := if a = 0x52 then 0x32 else a
      first &&& 0x01 = 0 ∧ first &&& 0x02 = 0x02 ∧ first ≠ 0x52 := forall_byte (by decide +kernel)
  exact hall networkId.toUInt8

theorem deriveMac_injective (networkId : UInt64) : Function.Injective fun ztAddress => deriveMac ztAddress networkId := by
  intro a b h
  rw [← addressOfMac_deriveMac a networkId, ← addressOfMac_deriveMac b networkId]
  exact congrArg (addressOfMac · networkId) h

end Ethernet

/-! ### Directories -/

/-- Members that are listed under their own MACs share none. -/
theorem ztAddress_eq_of_mac_eq {networkId : UInt64} {members : List NetworkMember}
    (h : ∀ m ∈ members, m.mac = Ethernet.deriveMac m.ztAddress networkId) :
    ∀ m ∈ members, ∀ m' ∈ members, m.mac = m'.mac → m.ztAddress = m'.ztAddress := by
  intro m hm m' hm' hmac
  rw [h m hm, h m' hm'] at hmac
  exact Ethernet.deriveMac_injective networkId hmac

/-- In every run that joins memberships whose members have their own MACs, no directory
lists two members under one MAC. -/
theorem Service.run_macs_distinct {pr : Primitives} {identity : Identity} {planetData : Bytes} {initialPacketId : UInt64}
    {start n : Node} {t : List (Entry Node Event Output)} (hstart : Node.new identity planetData initialPacketId = .ok start)
    (hrun : NodeRun pr start t n) (hjoins : ∀ e ∈ t, JoinsOwnMacs e) :
    n.Each fun net => ∀ m ∈ net.members, ∀ m' ∈ net.members, m.mac = m'.mac → m.ztAddress = m'.ztAddress :=
  fun net hnet => ztAddress_eq_of_mac_eq (run_ownMacs hstart hrun hjoins net hnet)

/-- On a network every address has a MAC of its own, which is that of one station, locally
administered, does not begin with 0x52 and gives the address back; no directory lists two
members under one MAC. -/
theorem deriveMac_identifies :
    (∀ networkId, Function.Injective fun ztAddress => Ethernet.deriveMac ztAddress networkId) ∧
    (∀ ztAddress networkId, let mac := Ethernet.deriveMac ztAddress networkId
      byteAt mac.toBytes 0 &&& 0x01 = 0 ∧ byteAt mac.toBytes 0 &&& 0x02 = 0x02 ∧ byteAt mac.toBytes 0 ≠ 0x52 ∧
        Ethernet.addressOfMac mac networkId = ztAddress) ∧
    ∀ dictData networkId ourAddress directory,
      peerDirectoryFromDictData dictData networkId ourAddress = some directory →
        ∀ m ∈ directory.members, ∀ m' ∈ directory.members, m.mac = m'.mac → m.ztAddress = m'.ztAddress := by
  refine ⟨Ethernet.deriveMac_injective, fun ztAddress networkId => ?_, fun dictData networkId ourAddress directory h => ?_⟩
  · have hfirst : byteAt (Ethernet.deriveMac ztAddress networkId).toBytes 0 = Ethernet.firstOctet networkId := by
      rw [Ethernet.toBytes_deriveMac]
      rfl
    obtain ⟨hunicast, hlocal, hne⟩ := Ethernet.firstOctet_form networkId
    simp only [hfirst]
    exact ⟨hunicast, hlocal, hne, Ethernet.addressOfMac_deriveMac ztAddress networkId⟩
  · obtain ⟨dict, -, h⟩ := Option.bind_eq_some_iff.mp h
    obtain ⟨data, -, h⟩ := Option.bind_eq_some_iff.mp h
    obtain ⟨-, h⟩ := Option.ite_none_left_eq_some.mp h
    exact ztAddress_eq_of_mac_eq (mac_peerDirectoryEntries _ _ _ _ h)

/-- A directory of two members without addresses. -/
def sampleMacDirectory : Bytes := Dictionary.serialize [⟨ConfigKey.peerDirectory,
  [0, 2, 1, 2, 3, 4, 5, 0, 0, 1, 0, 0, 0, 0, 0, 0, 0, 1, 2, 3, 4, 6, 0, 0, 1, 0, 0, 0, 0, 0, 0, 0]⟩]

theorem deriveMac_identifies_two : ∃ directory,
    peerDirectoryFromDictData sampleMacDirectory 0x0102030405000001 (ByteVec.zero 5) = some directory ∧
      directory.members.length = 2 ∧
      ∀ m ∈ directory.members, ∀ m' ∈ directory.members, m.mac = m'.mac → m.ztAddress = m'.ztAddress := by
  have hread : ((peerDirectoryFromDictData sampleMacDirectory 0x0102030405000001 (ByteVec.zero 5)).map
      fun directory => directory.members.length) = some 2 := by
    decide +kernel
  obtain ⟨directory, hdirectory, hlength⟩ := Option.map_eq_some_iff.mp hread
  exact ⟨directory, hdirectory, hlength, deriveMac_identifies.2.2 _ _ _ directory hdirectory⟩

end ManyTier
