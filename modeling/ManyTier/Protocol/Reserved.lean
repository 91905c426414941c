import ManyTier.Crypto.Sample
import ManyTier.Protocol.Header

/-! Addresses whose packets look like fragments.

A fragment is told from a packet by the byte a packet has the first byte of its source
address in. The prefix is a constant of the wire format, but neither the constructor of
an address nor its derivation from a hash refuses it: they refuse two addresses only. So
a packet is taken for what it is exactly if its source does not begin with the prefix. -/
namespace ManyTier

namespace Constants

def ztAddressReservedPrefix : UInt8 := 0xff

end Constants

namespace Address

/-- Whether the address begins with the reserved byte. -/
def startsReserved (a : Address) : Bool := byteAt a.bytes.toBytes 0 = Constants.ztAddressReservedPrefix

end Address

namespace MemoryHard

/-- What is derived from a digest is accepted as an address. -/
theorem new_of_deriveAddress {digest : ByteVec 64} {bytes : ByteVec 5} (h : deriveAddress digest = some bytes) :
    ∃ a, Address.new bytes = .ok a ∧ a.bytes = bytes := by
  unfold deriveAddress at h
  simp only at h
  split at h
  · cases h
  · split at h
    · cases h
    · rename_i hzero
      split at h
      · cases h
      · rename_i hones
        obtain rfl := Option.some.inj h
        exact ⟨⟨_, hzero, hones⟩, by rw [Address.new, dif_neg hzero, dif_neg hones], rfl⟩

end MemoryHard

/-- Byte 13 of a packet is the first byte of its source. -/
theorem byteAt_source (h : PacketHeader) (payload : Bytes) :
    byteAt (h.toBytes ++ payload) 13 = byteAt h.source.toBytes 0 := by
  have hread := congrArg PacketHeader.source (PacketHeader.read_toBytes h payload)
  simp only [PacketHeader.read] at hread
  rw [← hread, byteAt_fieldAt _ _ _ (by decide)]

/-- A packet is not taken for a fragment exactly if its source does not begin with the
reserved byte; and every address that is derived from a digest is one that is accepted. -/
theorem isFragment_iff_reserved (a : Address) (h : PacketHeader) (payload : Bytes) (hsource : h.source = a.bytes) :
    (isFragment (h.toBytes ++ payload) = false ↔ a.startsReserved = false) ∧
    ∀ digest bytes, MemoryHard.deriveAddress digest = some bytes →
      ∃ a, Address.new bytes = .ok a ∧ a.bytes = bytes := by
  refine ⟨?_, fun digest bytes => MemoryHard.new_of_deriveAddress⟩
  have hlong : Constants.minFragmentLength ≤ (h.toBytes ++ payload).length := by
    simp [Constants.minFragmentLength]
    omega
  have hbyte := byteAt_source h payload
  rw [hsource] at hbyte
  rw [isFragment, hbyte, Address.startsReserved, decide_eq_false_iff_not, decide_eq_false_iff_not]
  exact ⟨fun hnot hfirst => hnot ⟨hlong, hfirst⟩, fun hnot hboth => hnot hboth.2⟩

namespace Sample

/-- The digest of an address that begins with the reserved byte. -/
def reservedDigest : ByteVec 64 := ⟨List.replicate 59 0 ++ [0xff, 0x00, 0x00, 0x00, 0x01], by simp⟩

def reservedBytes : ByteVec 5 := ⟨[0xff, 0x00, 0x00, 0x00, 0x01], rfl⟩

end Sample

/-- The address is derived and accepted, and a packet it sends is taken for a fragment. -/
theorem reserved_mistaken :
    MemoryHard.deriveAddress Sample.reservedDigest = some Sample.reservedBytes ∧
    ∃ a, Address.new Sample.reservedBytes = .ok a ∧
      isFragment (PacketHeader.toBytes ⟨ByteVec.zero 8, ByteVec.zero 5, a.bytes, 0x00, ByteVec.zero 8, 0x01⟩) = true := by
  refine ⟨by decide, ⟨Sample.reservedBytes, by decide, by decide⟩, by decide, by decide⟩

/-- A packet of an address without the byte is a packet. -/
theorem isFragment_iff_reserved_plain :
    isFragment (PacketHeader.toBytes ⟨ByteVec.zero 8, ByteVec.zero 5, (Sample.identity 1).address.bytes, 0x00,
      ByteVec.zero 8, 0x01⟩ ++ []) = false :=
  (isFragment_iff_reserved (Sample.identity 1).address _ [] rfl).1.mpr (by decide)

end ManyTier
