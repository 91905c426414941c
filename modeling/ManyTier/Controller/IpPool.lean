import ManyTier.Controller.Addresses
import ManyTier.Controller.Records
import ManyTier.Lib.IpText

/-! Assignment of IPv4 addresses from pools.

The pools are searched in order and each from its start to its end, both included, for
an address that no assignment names (`allocateIpv4_some`, `allocateIpv4_none`). -/
namespace ManyTier.Controller

/-- The address before the slash. -/
def parseIpv4FromAssignment (assignment : Text) : Option (ByteVec 4) :=
  (splitOn slash assignment.bytes).head?.bind parseIpv4

/-- The four bytes of a number. -/
def ipv4OfNat (n : Nat) : ByteVec 4 := ⟨toBe 4 n, by simp⟩

/-- The first of `left` addresses from `addr` on that is not taken. -/
def scanRange (taken : List (ByteVec 4)) : Nat → Nat → Option (ByteVec 4)
  | 0, _ => none
  | left + 1, addr => if taken.contains (ipv4OfNat addr) then scanRange taken left (addr + 1) else some (ipv4OfNat addr)

def IpPool.first (pool : IpPool) : Nat := ofBe pool.rangeStart.toBytes

def IpPool.last (pool : IpPool) : Nat := ofBe pool.rangeEnd.toBytes

def allocateIpv4 (pools : List IpPool) (assigned : List Text) : Option (ByteVec 4) :=
  let assignedIps := assigned.filterMap parseIpv4FromAssignment
  pools.findSome? fun pool => scanRange assignedIps (pool.last + 1 - pool.first) pool.first

/-! ### The search -/

/-- An address of a pool. -/
def IpPool.Contains (pool : IpPool) (ip : ByteVec 4) : Prop :=
  pool.first ≤ ofBe ip.toBytes ∧ ofBe ip.toBytes ≤ pool.last

theorem ipv4OfNat_ofBe (ip : ByteVec 4) : ipv4OfNat (ofBe ip.toBytes) = ip := by
  apply ByteVec.toBytes_injective
  have hround := toBe_ofBe ip.toBytes
  rw [ByteVec.length_toBytes] at hround
  exact hround

theorem ofBe_ipv4OfNat {n : Nat} (h : n < 2 ^ 32) : ofBe (ipv4OfNat n).toBytes = n := by
  show ofBe (toBe 4 n) = n
  rw [ofBe_toBe]
  exact Nat.mod_eq_of_lt h

theorem ofBe_ipv4_lt (ip : ByteVec 4) : ofBe ip.toBytes < 2 ^ 32 := by
  have h := ofBe_lt ip.toBytes
  rwa [ByteVec.length_toBytes] at h

theorem scanRange_some {taken : List (ByteVec 4)} {left addr : Nat} {ip : ByteVec 4}
    (h : scanRange taken left addr = some ip) :
    ∃ k < left, ip = ipv4OfNat (addr + k) ∧ ip ∉ taken ∧ ∀ j < k, ipv4OfNat (addr + j) ∈ taken := by
  induction left generalizing addr with
  | zero => cases h
  | succ left ih =>
    rw [scanRange] at h
    split at h
    · rename_i htaken
      obtain ⟨k, hk, hip, hfree, hbefore⟩ := ih h
      refine ⟨k + 1, by omega, by rw [hip]; congr 1; omega, hfree, ?_⟩
      intro j hj
      cases j with
      | zero => simpa using htaken
      | succ j =>
        have hj' := hbefore j (by omega)
        rwa [show addr + 1 + j = addr + (j + 1) by omega] at hj'
    · rename_i htaken
      obtain rfl := Option.some.inj h
      exact ⟨0, by omega, rfl, by simpa using htaken, by omega⟩

theorem scanRange_none {taken : List (ByteVec 4)} {left addr : Nat} (h : scanRange taken left addr = none) :
    ∀ k < left, ipv4OfNat (addr + k) ∈ taken := by
  induction left generalizing addr with
  | zero => omega
  | succ left ih =>
    rw [scanRange] at h
    split at h
    · rename_i htaken
      intro k hk
      cases k with
      | zero => simpa using htaken
      | succ k =>
        have hk' := ih h k (by omega)
        rwa [show addr + 1 + k = addr + (k + 1) by omega] at hk'
    · cases h

/-- The first address of the pools, in order, that is not taken. -/
def FirstFree (pools : List IpPool) (taken : ByteVec 4 → Prop) (ip : ByteVec 4) : Prop :=
  ∃ before pool after, pools = before ++ pool :: after ∧ pool.Contains ip ∧ ¬ taken ip ∧
    (∀ p ∈ before, ∀ other, p.Contains other → taken other) ∧
    ∀ other, pool.Contains other → ofBe other.toBytes < ofBe ip.toBytes → taken other

/-- Whether an assignment among those given names an address. -/
def Named (assigned : List Text) (ip : ByteVec 4) : Prop :=
  ∃ assignment ∈ assigned, parseIpv4FromAssignment assignment = some ip

theorem mem_filterMap_parse {assigned : List Text} {ip : ByteVec 4} :
    ip ∈ assigned.filterMap parseIpv4FromAssignment ↔ Named assigned ip := List.mem_filterMap

theorem scanPool_none {pool : IpPool} {assigned : List Text}
    (h : scanRange (assigned.filterMap parseIpv4FromAssignment) (pool.last + 1 - pool.first) pool.first = none) :
    ∀ ip, pool.Contains ip → Named assigned ip := by
  rintro ip ⟨hfirst, hlast⟩
  have htaken := scanRange_none h (ofBe ip.toBytes - pool.first) (by omega)
  rw [show pool.first + (ofBe ip.toBytes - pool.first) = ofBe ip.toBytes by omega, ipv4OfNat_ofBe] at htaken
  exact mem_filterMap_parse.mp htaken

/-- What is allocated is the first address that no assignment names. -/
theorem allocateIpv4_some {pools : List IpPool} {assigned : List Text} {ip : ByteVec 4}
    (h : allocateIpv4 pools assigned = some ip) : FirstFree pools (Named assigned) ip := by
  obtain ⟨before, pool, after, rfl, hscan, hbefore⟩ := List.findSome?_eq_some_iff.mp h
  obtain ⟨k, hk, rfl, hfree, htaken⟩ := scanRange_some hscan
  have hlast : pool.last < 2 ^ 32 := ofBe_ipv4_lt pool.rangeEnd
  have hvalue : ofBe (ipv4OfNat (pool.first + k)).toBytes = pool.first + k := ofBe_ipv4OfNat (by omega)
  refine ⟨before, pool, after, rfl, ⟨by omega, by omega⟩, fun hnamed => hfree (mem_filterMap_parse.mpr hnamed),
    fun p hp => scanPool_none (hbefore p hp), ?_⟩
  rintro other ⟨hfirst, -⟩ hless
  have hother := htaken (ofBe other.toBytes - pool.first) (by omega)
  rw [show pool.first + (ofBe other.toBytes - pool.first) = ofBe other.toBytes by omega, ipv4OfNat_ofBe] at hother
  exact mem_filterMap_parse.mp hother

/-- Nothing is allocated only if every address of every pool is named. -/
theorem allocateIpv4_none {pools : List IpPool} {assigned : List Text} (h : allocateIpv4 pools assigned = none) :
    ∀ pool ∈ pools, ∀ ip, pool.Contains ip → Named assigned ip :=
  fun pool hpool => scanPool_none (List.findSome?_eq_none_iff.mp h pool hpool)

/-! ### Assignments -/

theorem mem_assigned {ip : ByteVec 4} {c : UInt8} (h : c ∈ formatIpv4 ip ++ ascii ['/', '2', '4']) : c < 0x80 := by
  have hdigit : ∀ d < 10, formatDigit d < 0x80 := by decide
  have hsuffix : ∀ c ∈ ascii ['/', '2', '4'], c < 0x80 := by decide +kernel
  rcases List.mem_append.mp h with h | h
  · rcases mem_formatIpv4 h with rfl | ⟨d, hd, rfl⟩
    · decide
    · exact hdigit d hd
  · exact hsuffix c h

/-- An address with the prefix length that assigned addresses have. -/
def assignmentOf (ip : ByteVec 4) : Text where
  bytes := formatIpv4 ip ++ ascii ['/', '2', '4']
  utf8 := isUtf8_of_ascii fun _ => mem_assigned

theorem parseIpv4_formatIpv4 (ip : ByteVec 4) : parseIpv4 (formatIpv4 ip) = some ip := by
  obtain ⟨bytes, hlen⟩ := ip
  obtain ⟨a, b, c, d, rfl⟩ : ∃ a b c d, bytes = [a, b, c, d] := List.length_eq_four.mp hlen
  have hsplit : splitOn dot (formatIpv4 ⟨[a, b, c, d], hlen⟩) =
      [formatDecimal a.toNat, formatDecimal b.toNat, formatDecimal c.toNat, formatDecimal d.toNat] :=
    splitOn_formatIpv4 _
  rw [parseIpv4, hsplit]
  simp only [parseU8_formatDecimal, Option.bind_eq_bind, Option.bind_some]
  rfl

/-- An assigned address is read as it was assigned. -/
theorem parse_assignmentOf (ip : ByteVec 4) : parseIpv4FromAssignment (assignmentOf ip) = some ip := by
  have hjoin : (assignmentOf ip).bytes = [slash].intercalate [formatIpv4 ip, ascii ['2', '4']] := by
    simp [assignmentOf, ascii, slash]
  have hparts : splitOn slash (assignmentOf ip).bytes = [formatIpv4 ip, ascii ['2', '4']] := by
    rw [hjoin]
    refine List.splitOn_intercalate _ ?_ (by simp)
    intro part hpart
    rcases List.mem_cons.mp hpart with rfl | hpart
    · exact slash_notMem_formatIpv4 ip
    · obtain rfl := List.mem_singleton.mp hpart
      decide
  rw [parseIpv4FromAssignment, hparts]
  exact parseIpv4_formatIpv4 ip

end ManyTier.Controller
