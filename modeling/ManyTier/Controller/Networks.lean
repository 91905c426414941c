import ManyTier.Controller.Routes
import ManyTier.Lib.Bits
import ManyTier.Lib.Leading

/-! The networks that assigned addresses are in.

A mask leaves the first bits of an address and clears the others, in one word for IPv4
(`ipv4Network_cuts`) and byte by byte for IPv6 (`applyIpv6Mask_cuts`). So what it gives is
the base of the one network of that length around the address, and the routes derived from
assignments lead to the networks of the assigned addresses, in their order
(`masks_exact`). -/
namespace ManyTier.Controller

/-- A prefix length, and an address without a bit behind it. -/
abbrev Cidr (n : Nat) := Block (ByteVec.bit (n := n))

/-! ### IPv4 -/

/-- The mask of a prefix length, for one of at most 32. -/
def ipv4Mask (bits : UInt8) : UInt32 := if bits = 0 then 0 else 0xffffffff <<< (32 - bits).toUInt32

def ipv4Network (bits : UInt8) (octets : ByteVec 4) : ByteVec 4 :=
  ByteVec.ofBytes 4 (be32 (u32At octets.toBytes 0 &&& ipv4Mask bits))

theorem applyIpv4Mask_eq_ok {octets network : ByteVec 4} {bits : UInt8} :
    applyIpv4Mask octets bits = .ok network ↔ bits ≤ 32 ∧ ipv4Network bits octets = network := by
  unfold applyIpv4Mask
  split
  · rename_i hlong
    exact iff_of_false (fun h => nomatch h) fun h => absurd hlong (UInt8.not_lt.mpr h.1)
  · rename_i hshort
    rw [and_iff_right (UInt8.not_lt.mp hshort), Except.ok.injEq]
    rfl

theorem testBit_ipv4Mask {bits : UInt8} (h : bits ≤ 32) {k : Nat} (hk : k < 32) :
    (ipv4Mask bits).toNat.testBit (31 - k) = decide (k < bits.toNat) := by
  have hle : bits.toNat ≤ 32 := UInt8.le_iff_toNat_le.mp h
  unfold ipv4Mask
  split
  · rename_i hzero
    rw [hzero]
    exact Nat.zero_testBit _
  · rename_i hne
    have hpos : bits.toNat ≠ 0 := fun hzero => hne (UInt8.toNat_inj.mp hzero)
    have hshift : (32 - bits).toUInt32.toNat % 32 = 32 - bits.toNat := by
      rw [UInt8.toNat_toUInt32, UInt8.toNat_sub_of_le _ _ h]
      exact Nat.mod_eq_of_lt (by show 32 - bits.toNat < 32; omega)
    rw [UInt32.toNat_shiftLeft, hshift]
    refine (testBit_shifted_ones 32 (32 - bits.toNat) (31 - k)).trans ?_
    rw [decide_eq_true (by omega : 31 - k < 32), Bool.and_true]
    exact decide_eq_decide.mpr (by omega)

/-- An address is the digits of its word. -/
theorem be32_u32At_octets (octets : ByteVec 4) : be32 (u32At octets.toBytes 0) = octets.toBytes := by
  rw [be32_u32At (by rw [octets.length_toBytes]), slice, List.drop_zero,
    List.take_of_length_le (by rw [octets.length_toBytes])]

/-- The word of an address has its bits. -/
theorem bit_be32 (word : UInt32) {k : Nat} (hk : k < 32) :
    (ByteVec.ofBytes 4 (be32 word)).bit k = word.toNat.testBit (31 - k) := by
  rw [ByteVec.bit, ByteVec.toBytes_ofBytes 4 _ (by simp), List.take_of_length_le (by simp)]
  exact bitAt_toBe hk word.toNat

theorem ipv4Network_cuts {bits : UInt8} (h : bits ≤ 32) : Cuts ByteVec.bit bits.toNat (ipv4Network bits) := by
  intro octets
  funext k
  rcases Nat.lt_or_ge k 32 with hk | hk
  · have hoctets : (u32At octets.toBytes 0).toNat.testBit (31 - k) = octets.bit k := by
      rw [← bit_be32 _ hk, be32_u32At_octets, ByteVec.ofBytes_toBytes]
    rw [ipv4Network, bit_be32 _ hk, UInt32.toNat_and, Nat.testBit_and, hoctets, testBit_ipv4Mask h hk, cut_bits,
      Bool.and_comm]
  · rw [cut_bits, ByteVec.bit_of_le _ hk, ByteVec.bit_of_le _ hk, Bool.and_false]

/-! ### IPv6 -/

/-- A bit of a byte under the mask: before the boundary, on the byte that it falls in, or
behind it. -/
theorem testBit_maskByte (bits i : Nat) (b : UInt8) {j : Nat} (hj : j < 8) :
    (maskByte bits i b).toNat.testBit j = (decide (8 * i + (7 - j) < bits) && b.toNat.testBit j) := by
  unfold maskByte
  split
  · rw [decide_eq_false (by omega), Bool.false_and]
    exact Nat.zero_testBit j
  · split
    · have hshift : (UInt8.ofNat (8 - (bits - i * 8))).toNat % 8 = 8 - (bits - i * 8) := by
        rw [UInt8.toNat_ofNat']
        omega
      have hmask : ((0xff : UInt8) <<< UInt8.ofNat (8 - (bits - i * 8))).toNat.testBit j =
          decide (8 * i + (7 - j) < bits) := by
        rw [UInt8.toNat_shiftLeft, hshift]
        refine (testBit_shifted_ones 8 (8 - (bits - i * 8)) j).trans ?_
        rw [decide_eq_true hj, Bool.and_true]
        exact decide_eq_decide.mpr (by omega)
      rw [UInt8.toNat_and, Nat.testBit_and, hmask, Bool.and_comm]
    · rw [decide_eq_true (by omega), Bool.true_and]

theorem byteAt_applyIpv6Mask (octets : ByteVec 16) (bits : UInt8) {i : Nat} (h : i < 16) :
    byteAt (applyIpv6Mask octets bits).toBytes i = maskByte bits.toNat i (byteAt octets.toBytes i) := by
  have hlength : i < octets.toBytes.length := by rwa [octets.length_toBytes]
  have hbytes : (applyIpv6Mask octets bits).toBytes = octets.toBytes.mapIdx (maskByte bits.toNat) := rfl
  rw [byteAt, byteAt, hbytes, List.getD_eq_getElem _ _ (by rwa [List.length_mapIdx]), List.getD_eq_getElem _ _ hlength,
    List.getElem_mapIdx]

theorem applyIpv6Mask_cuts (bits : UInt8) : Cuts ByteVec.bit bits.toNat fun octets => applyIpv6Mask octets bits := by
  intro octets
  funext k
  rcases Nat.lt_or_ge k (8 * 16) with hk | hk
  · have hplace : 8 * (k / 8) + (7 - (7 - k % 8)) = k := by omega
    rw [cut_bits, ByteVec.bit, bitAt, byteAt_applyIpv6Mask octets bits (by omega), testBit_maskByte _ _ _ (by omega),
      hplace]
    rfl
  · rw [cut_bits, ByteVec.bit_of_le _ hk, ByteVec.bit_of_le _ hk, Bool.and_false]

/-! ### Masks -/

/-- A mask of some length returns for every address: the first bits stay and all others are
cleared, what it gives stays as it is, and it gives the same for two addresses exactly if
they agree on the first bits. -/
structure MaskExact {n : Nat} (bits : Nat) (mask : ByteVec n → Except Fault (ByteVec n)) : Prop where
  returns : ∀ ip, ∃ network, mask ip = .ok network
  kept : ∀ ip network, mask ip = .ok network → ∀ k < bits, network.bit k = ip.bit k
  cleared : ∀ ip network, mask ip = .ok network → ∀ k, bits ≤ k → network.bit k = false
  idempotent : ∀ ip network, mask ip = .ok network → mask network = .ok network
  same_iff : ∀ a b, mask a = mask b ↔ ∀ k < bits, a.bit k = b.bit k

theorem maskExact_of_cuts {n bits : Nat} {mask : ByteVec n → Except Fault (ByteVec n)} {network : ByteVec n → ByteVec n}
    (hmask : ∀ ip, mask ip = .ok (network ip)) (h : Cuts ByteVec.bit bits network) : MaskExact bits mask where
  returns := fun ip => ⟨network ip, hmask ip⟩
  kept := by
    intro ip masked hip k hk
    obtain rfl := Except.ok.inj ((hmask ip).symm.trans hip)
    exact h.kept ip hk
  cleared := by
    intro ip masked hip k hk
    obtain rfl := Except.ok.inj ((hmask ip).symm.trans hip)
    exact h.blank ip hk
  idempotent := by
    intro ip masked hip
    obtain rfl := Except.ok.inj ((hmask ip).symm.trans hip)
    rw [hmask, h.idempotent ByteVec.bit_injective]
  same_iff := by
    intro a b
    rw [hmask, hmask, Except.ok.injEq]
    exact h.eq_iff ByteVec.bit_injective a b

/-! ### Routes -/

/-- A target is the network of an address with its prefix length: it has the family and the
length, no bit behind the length, and the address as a member. -/
inductive NetworkOf : InetAddress → InetAddress → Prop where
  | v4 {ip : ByteVec 4} {bits : UInt16} (network : Cidr 4) (hlength : network.length = bits.toNat)
      (hmem : ip ∈ network.members) : NetworkOf (.v4 network.base bits) (.v4 ip bits)
  | v6 {ip : ByteVec 16} {bits : UInt16} (network : Cidr 16) (hlength : network.length = bits.toNat)
      (hmem : ip ∈ network.members) : NetworkOf (.v6 network.base bits) (.v6 ip bits)

/-- An address has one network. -/
theorem NetworkOf.unique {target target' inet : InetAddress} (h : NetworkOf target inet) (h' : NetworkOf target' inet) :
    target = target' := by
  cases h with
  | v4 network hlength hmem =>
    cases h' with
    | v4 network' hlength' hmem' =>
      rw [Block.eq_of_mem ByteVec.bit_injective (hlength.trans hlength'.symm) hmem hmem']
  | v6 network hlength hmem =>
    cases h' with
    | v6 network' hlength' hmem' =>
      rw [Block.eq_of_mem ByteVec.bit_injective (hlength.trans hlength'.symm) hmem hmem']

/-- What the mask makes of an address with a prefix length is its network. -/
theorem networkOf_of_maskInet {inet network : InetAddress} {bits : UInt8} (hnull : inet ≠ .null)
    (hbits : inet.bits = bits.toUInt16) (h : maskInet inet = .ok network) : NetworkOf network inet := by
  have hsame : bits.toUInt16.toUInt8 = bits := UInt8.toUInt8_toUInt16 bits
  have hlength : bits.toNat = bits.toUInt16.toNat := (UInt8.toNat_toUInt16 bits).symm
  cases inet with
  | null => exact absurd rfl hnull
  | v4 ip port =>
    obtain rfl : port = bits.toUInt16 := hbits
    rw [maskInet, hsame] at h
    cases hmask : applyIpv4Mask ip bits with
    | error e =>
      rw [hmask] at h
      cases h
    | ok masked =>
      obtain ⟨hle, rfl⟩ := applyIpv4Mask_eq_ok.mp hmask
      rw [hmask] at h
      obtain rfl := Except.ok.inj h
      exact .v4 ((ipv4Network_cuts hle).block ip) hlength ((ipv4Network_cuts hle).mem_block ip)
  | v6 ip port =>
    obtain rfl : port = bits.toUInt16 := hbits
    rw [maskInet, hsame] at h
    obtain rfl := Except.ok.inj h
    exact .v6 ((applyIpv6Mask_cuts bits).block ip) hlength ((applyIpv6Mask_cuts bits).mem_block ip)

/-- The target of a derived route is the network of the address assigned, and no other is. -/
theorem derivedEntry_network {assignment : Text} {route : RouteEntry} (h : derivedEntry assignment = .ok (some route)) :
    ∃ inet, assignmentInet assignment = .ok (some inet) ∧ route.via = .null ∧
      ∀ target, NetworkOf target inet ↔ target = route.target := by
  obtain ⟨inet, hinet, hrest⟩ := bind_eq_ok h
  cases inet with
  | none => cases hrest
  | some inet =>
    obtain ⟨network, hnetwork, heq⟩ := bind_eq_ok hrest
    obtain rfl := Option.some.inj (Except.ok.inj heq)
    obtain ⟨hnull, bits, -, hbits⟩ := assignmentInet_some hinet
    have hof := networkOf_of_maskInet hnull hbits hnetwork
    refine ⟨inet, hinet, rfl, fun target => ⟨fun htarget => htarget.unique hof, ?_⟩⟩
    rintro rfl
    exact hof

/-- An assignment that gives no route names no address. -/
theorem assignmentInet_of_derivedEntry_none {assignment : Text} (h : derivedEntry assignment = .ok none) :
    assignmentInet assignment = .ok none := by
  obtain ⟨inet, hinet, hrest⟩ := bind_eq_ok h
  cases inet with
  | none => exact hinet
  | some inet =>
    obtain ⟨network, -, heq⟩ := bind_eq_ok hrest
    cases heq

/-- The derived routes are those to the networks of the assigned addresses, one for each and
in their order. -/
theorem collect_derivedEntry {ips : List Text} {routes : List RouteEntry} (h : collect derivedEntry ips = .ok routes) :
    ∃ inets, collect assignmentInet ips = .ok inets ∧ List.Forall₂
      (fun inet route => route.via = .null ∧ ∀ target, NetworkOf target inet ↔ target = route.target) inets routes := by
  induction ips generalizing routes with
  | nil =>
    obtain rfl := Except.ok.inj h
    exact ⟨[], rfl, .nil⟩
  | cons assignment rest ih =>
    obtain ⟨route, hroute, hrest⟩ := bind_eq_ok h
    obtain ⟨routes', hroutes', heq⟩ := bind_eq_ok hrest
    obtain rfl := Except.ok.inj heq
    obtain ⟨inets, hinets, hall⟩ := ih hroutes'
    cases route with
    | none =>
      have hnone := assignmentInet_of_derivedEntry_none hroute
      exact ⟨inets, by simp only [collect, hnone, hinets, ok_bind]; rfl, hall⟩
    | some route =>
      obtain ⟨inet, hinet, hnetwork⟩ := derivedEntry_network hroute
      exact ⟨inet :: inets, by simp only [collect, hinet, hinets, ok_bind]; rfl, .cons hnetwork hall⟩

/-- The routes of the assignments, as they are sent. -/
def serializeRoutesFromIps (ips : List Text) : Except Fault Bytes := do
  let routes ← collect derivedEntry ips
  return routes.flatMap RouteEntry.serialize

/-- They stand behind the managed ones. -/
theorem serializeRoutes_eq (managed : List ManagedRoute) (assignments : List Text) :
    serializeRoutes managed assignments = do
      let explicit ← collect managedEntry managed
      let derived ← serializeRoutesFromIps assignments
      return explicit.flatMap RouteEntry.serialize ++ derived := by
  unfold serializeRoutes routeEntries serializeRoutesFromIps
  cases collect managedEntry managed with
  | error e => rfl
  | ok explicit =>
    cases collect derivedEntry assignments with
    | error e => rfl
    | ok derived => exact congrArg Except.ok List.flatMap_append

/-- A mask of at most 32 bits, or of at most 128 for IPv6, is exact for every address, and
every route derived from assignments leads to the one network of the prefix length around
the address assigned. -/
theorem masks_exact :
    (∀ bits : UInt8, bits ≤ 32 → MaskExact bits.toNat fun ip => applyIpv4Mask ip bits) ∧
    (∀ bits : UInt8, bits ≤ 128 → MaskExact bits.toNat fun ip => .ok (applyIpv6Mask ip bits)) ∧
    ∀ (ips : List Text) (data : Bytes), serializeRoutesFromIps ips = .ok data →
      ∃ inets routes, collect assignmentInet ips = .ok inets ∧ data = routes.flatMap RouteEntry.serialize ∧
        List.Forall₂ (fun inet route => route.via = .null ∧ ∀ target, NetworkOf target inet ↔ target = route.target)
          inets routes := by
  refine ⟨fun bits hbits => ?_, fun bits _ => ?_, fun ips data h => ?_⟩
  · exact maskExact_of_cuts (fun _ => applyIpv4Mask_eq_ok.mpr ⟨hbits, rfl⟩) (ipv4Network_cuts hbits)
  · exact maskExact_of_cuts (fun _ => rfl) (applyIpv6Mask_cuts bits)
  · obtain ⟨routes, hroutes, heq⟩ := bind_eq_ok h
    obtain ⟨inets, hinets, hall⟩ := collect_derivedEntry hroutes
    exact ⟨inets, routes, hinets, (Except.ok.inj heq).symm, hall⟩

/-- Two addresses of one network of 20 bits, a boundary in the middle of a byte of an IPv6
address, and the route derived from 10.147.20.5/24. -/
theorem masks_exact_sample :
    applyIpv4Mask ⟨[10, 147, 20, 5], rfl⟩ 20 = applyIpv4Mask ⟨[10, 147, 31, 255], rfl⟩ 20 ∧
    (applyIpv6Mask (ByteVec.ofBytes 16 [0xfd, 0x0f, 0xff]) 21).bit 20 = true ∧
    ∃ inets routes, collect assignmentInet [SampleRoutes.assignment] = .ok inets ∧
      [4, 10, 147, 20, 0, 0, 24, 0, 0, 0, 0, 0] = routes.flatMap RouteEntry.serialize ∧
      List.Forall₂ (fun inet route => route.via = .null ∧ ∀ target, NetworkOf target inet ↔ target = route.target)
        inets routes := by
  refine ⟨((masks_exact.1 20 (by decide)).same_iff _ _).mpr ?_, ?_, masks_exact.2.2 _ _ (by decide)⟩
  · decide
  · rw [(masks_exact.2.1 21 (by decide)).kept (ByteVec.ofBytes 16 [0xfd, 0x0f, 0xff]) _ rfl 20 (by decide)]
    decide

end ManyTier.Controller
