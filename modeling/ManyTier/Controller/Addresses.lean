import ManyTier.Lib.Run
import ManyTier.Lib.Text
import ManyTier.Protocol.InetAddress

/-! The controller's own reading of addresses and prefix lengths.

Assignments and routes are stored as text and read again each time a configuration is
built. A subtraction that would go below zero is a panic. -/
namespace ManyTier.Controller

def slash : UInt8 := 0x2f
def colon : UInt8 := 0x3a
def dot : UInt8 := 0x2e

/-- The parts between occurrences of a byte twice in a row. -/
def splitOnPair (sep : UInt8) : Bytes → List Bytes
  | a :: b :: rest =>
    if a = sep ∧ b = sep then [] :: splitOnPair sep rest
    else
      match splitOnPair sep (b :: rest) with
      | part :: parts => (a :: part) :: parts
      | [] => [[a]]
  | [a] => [[a]]
  | [] => [[]]

/-- An address and its prefix length; a whole address when there is no slash. -/
def parseIpPrefix (s : Bytes) : Option (Bytes × UInt8) :=
  match splitOnce slash s with
  | some (ip, bits) => (parseU8 bits).map fun bits => (ip, bits)
  | none => if s.contains colon then some (s, 128) else some (s, 32)

/-- Four numbers between dots. -/
def parseIpv4 (s : Bytes) : Option (ByteVec 4) :=
  match splitOn dot s with
  | [a, b, c, d] => do
    let a ← parseU8 a
    let b ← parseU8 b
    let c ← parseU8 c
    let d ← parseU8 d
    return ⟨[a, b, c, d], rfl⟩
  | _ => none

def parseGroup (s : Bytes) : Option UInt16 := (parseUnsigned 16 65535 s).map UInt16.ofNat

def ipv6OfGroups (groups : List UInt16) : ByteVec 16 := ByteVec.ofBytes 16 (groups.flatMap be16)

/-- The groups on one side of a double colon. -/
def sideGroups (s : Bytes) : List Bytes := if s.isEmpty then [] else splitOn colon s

/-- Eight groups, or fewer around one double colon. How many groups the colons stand for
is a subtraction. -/
def parseIpv6 (s : Bytes) : Except Fault (Option (ByteVec 16)) :=
  if ! s.contains colon then .ok none
  else
    match splitOnPair colon s with
    | [_] =>
      let segs := splitOn colon s
      if segs.length ≠ 8 then .ok none else .ok ((segs.mapM parseGroup).map ipv6OfGroups)
    | [l, r] =>
      let left := sideGroups l
      let right := sideGroups r
      if 8 < left.length + right.length then .error .panic
      else .ok (do
        let leftGroups ← left.mapM parseGroup
        let rightGroups ← right.mapM parseGroup
        return ipv6OfGroups
          (leftGroups ++ List.replicate (8 - left.length - right.length) 0 ++ rightGroups))
    | _ => .ok none

/-- An address of either family, with a prefix length in the port's place. -/
def parseInet (ip : Bytes) (bits : UInt8) : Except Fault (Option InetAddress) :=
  match parseIpv4 ip with
  | some octets => .ok (some (.v4 octets bits.toUInt16))
  | none => do
    let octets ← parseIpv6 ip
    return octets.map fun octets => .v6 octets bits.toUInt16

/-! ### Masks -/

/-- The network part of an address. The shift is 32 less the prefix length. -/
def applyIpv4Mask (octets : ByteVec 4) (bits : UInt8) : Except Fault (ByteVec 4) :=
  if 32 < bits then .error .panic
  else
    let mask : UInt32 := if bits = 0 then 0 else 0xffffffff <<< (32 - bits).toUInt32
    .ok (ByteVec.ofBytes 4 (be32 (u32At octets.toBytes 0 &&& mask)))

def maskByte (bits : Nat) (i : Nat) (b : UInt8) : UInt8 :=
  if bits ≤ i * 8 then 0
  else if bits < i * 8 + 8 then b &&& (0xff <<< UInt8.ofNat (8 - (bits - i * 8)))
  else b

def applyIpv6Mask (octets : ByteVec 16) (bits : UInt8) : ByteVec 16 :=
  ⟨octets.toBytes.mapIdx (maskByte bits.toNat), by simp⟩

def maskInet : InetAddress → Except Fault InetAddress
  | .v4 ip bits => (applyIpv4Mask ip bits.toUInt8).map fun network => .v4 network bits
  | .v6 ip bits => .ok (.v6 (applyIpv6Mask ip bits.toUInt8) bits)
  | .null => .ok .null

end ManyTier.Controller
