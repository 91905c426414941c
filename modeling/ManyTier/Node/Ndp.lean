import ManyTier.Lib.OnesComplement
import ManyTier.Lib.Run
import ManyTier.Node.Network

/-! Neighbor discovery messages and their checksums.

The checksum is taken in an accumulator of 32 bits, into which carries are brought in at
the end. What it comes to is the complement of the ones' complement sum of pseudo-header
and body (`icmpv6Checksum_eq`), so that the finished message adds up to 0xffff
(`built_checksums`). -/
namespace ManyTier.Ndp

def icmpv6Rs : UInt8 := 133
def icmpv6Ra : UInt8 := 134
def icmpv6Ns : UInt8 := 135
def icmpv6Na : UInt8 := 136
def ipv6NextHeaderIcmpv6 : UInt8 := 58

inductive NdpAction where
  | reply (icmpv6Body : Bytes)
  | ignore

/-! ### The checksum -/

/-- Something added to the accumulator, which must not overflow. -/
def addSum (sum x : UInt32) : Except Fault UInt32 :=
  if sum.toNat + x.toNat < 2 ^ 32 then .ok (sum + x) else .error .panic

/-- Words of two bytes added, behind an odd last byte a zero. -/
def addWords (sum : UInt32) : Bytes → Except Fault UInt32
  | [] => .ok sum
  | [last] => addSum sum (last.toUInt32 <<< 8)
  | high :: low :: rest => do
    let sum ← addSum sum (ofBe16 [high, low]).toUInt32
    addWords sum rest

/-- The upper half brought in at the low end until there is none. -/
def foldSum : Nat → UInt32 → Except Fault UInt32
  | 0, sum => if sum >>> 16 = 0 then .ok sum else .error .outOfFuel
  | fuel + 1, sum =>
    if sum >>> 16 = 0 then .ok sum
    else do
      let sum ← addSum (sum &&& 0xffff) (sum >>> 16)
      foldSum fuel sum

/-- The checksum over a pseudo-header and a body; folding makes the sum smaller each time. -/
def icmpv6Checksum (src dst : ByteVec 16) (icmpv6Body : Bytes) : Except Fault UInt16 := do
  let sum ← addWords 0 src.toBytes
  let sum ← addWords sum dst.toBytes
  let length := UInt32.ofNat icmpv6Body.length
  let sum ← addSum sum (length >>> 16)
  let sum ← addSum sum (length &&& 0xffff)
  let sum ← addSum sum ipv6NextHeaderIcmpv6.toUInt32
  let sum ← addWords sum icmpv6Body
  let sum ← foldSum sum.toNat sum
  return ~~~sum.toUInt16

/-- A message whose checksum is zero yet, with its checksum. -/
def withChecksum (src dst : ByteVec 16) (buf : Bytes) : Except Fault Bytes := do
  let checksum ← icmpv6Checksum src dst buf
  return overwrite buf 2 [(checksum >>> 8).toUInt8, (checksum &&& 0xff).toUInt8]

/-- A neighbor advertisement with the link-layer address of the target. -/
def buildNa (targetIp : ByteVec 16) (targetMac : Mac) (solicited overrideFlag : Bool) (srcIp dstIp : ByteVec 16) :
    Except Fault Bytes :=
  let flags : UInt8 := (if solicited then 0x40 else 0) ||| (if overrideFlag then 0x20 else 0)
  withChecksum srcIp dstIp
    ([icmpv6Na, 0, 0, 0, flags, 0, 0, 0] ++ (targetIp.toBytes ++ ([2, 1] ++ targetMac.toBytes)))

/-- A router advertisement with a prefix. -/
def buildRa (ourIp dstIp pfx : ByteVec 16) (prefixLen : UInt8) : Except Fault Bytes :=
  withChecksum ourIp dstIp
    ([icmpv6Ra, 0, 0, 0, 64, 0] ++ (be16 1800 ++ (be32 0 ++ (be32 0 ++ ([3, 4, prefixLen, 0xc0] ++
      (be32 86400 ++ (be32 14400 ++ (be32 0 ++ pfx.toBytes))))))))

/-- ff02::1 and fe80::1. -/
def allNodes : ByteVec 16 := ⟨[0xff, 0x02, 0, 0, 0, 0, 0, 0, 0, 0, 0, 0, 0, 0, 0, 1], rfl⟩
def linkLocalRouter : ByteVec 16 := ⟨[0xfe, 0x80, 0, 0, 0, 0, 0, 0, 0, 0, 0, 0, 0, 0, 0, 1], rfl⟩

/-- A solicitation of a member is answered in its name; one from the address of zeros,
which looks for a duplicate, to all nodes. -/
def handleNs (icmpv6Body : Bytes) (srcIp : ByteVec 16) (membership : NetworkMembership) : Except Fault NdpAction :=
  if icmpv6Body.length < 24 then .ok .ignore
  else
    let target : ByteVec 16 := fieldAt 16 icmpv6Body 8
    match membership.lookupIpv6 target with
    | none => .ok .ignore
    | some member => do
      let isDad := srcIp = ByteVec.zero 16
      let replyDst := if isDad then allNodes else srcIp
      let na ← buildNa target member.mac (! isDad) true target replyDst
      return .reply na

def handleRs (ourIpv6Prefix : Option (Ipv6Addr × UInt8)) : Except Fault NdpAction :=
  match ourIpv6Prefix with
  | none => .ok .ignore
  | some (addr, len) => do
    let ra ← buildRa linkLocalRouter allNodes addr len
    return .reply ra

def handleNdp (icmpv6Body : Bytes) (srcIp : ByteVec 16) (membership : NetworkMembership)
    (ourIpv6Prefix : Option (Ipv6Addr × UInt8)) : Except Fault NdpAction :=
  if icmpv6Body.isEmpty then .ok .ignore
  else
    let icmpType := byteAt icmpv6Body 0
    if icmpType = icmpv6Ns then handleNs icmpv6Body srcIp membership
    else if icmpType = icmpv6Rs then handleRs ourIpv6Prefix
    else .ok .ignore

/-! ### Words -/

/-- The words of a byte string. -/
def wordsOf : Bytes → List Nat
  | [] => []
  | [last] => [last.toNat * 256]
  | high :: low :: rest => (high.toNat * 256 + low.toNat) :: wordsOf rest

theorem wordsOf_le (b : Bytes) : ∀ w ∈ wordsOf b, w ≤ 0xffff := by
  induction b using wordsOf.induct with
  | case1 => exact fun w hw => nomatch hw
  | case2 last =>
    have hlast := last.toNat_lt
    intro w hw
    obtain rfl := List.mem_singleton.mp hw
    omega
  | case3 high low rest ih =>
    have hhigh := high.toNat_lt
    have hlow := low.toNat_lt
    exact List.forall_mem_cons.mpr ⟨by omega, ih⟩

theorem sum_wordsOf_le (b : Bytes) : (wordsOf b).sum ≤ 0xffff * ((b.length + 1) / 2) := by
  induction b using wordsOf.induct with
  | case1 => exact Nat.zero_le _
  | case2 last =>
    have hlast := last.toNat_lt
    simp only [wordsOf, List.sum_cons, List.sum_nil, List.length_cons, List.length_nil]
    omega
  | case3 high low rest ih =>
    have hhigh := high.toNat_lt
    have hlow := low.toNat_lt
    simp only [wordsOf, List.sum_cons, List.length_cons]
    omega

/-- Behind whole words. -/
theorem wordsOf_append {a : Bytes} (h : a.length % 2 = 0) (b : Bytes) : wordsOf (a ++ b) = wordsOf a ++ wordsOf b := by
  induction a using wordsOf.induct with
  | case1 => rfl
  | case2 last => cases h
  | case3 high low rest ih =>
    rw [List.length_cons, List.length_cons] at h
    rw [List.cons_append, List.cons_append, wordsOf, wordsOf, List.cons_append, ih (by omega)]

/-! ### What the checksum comes to -/

theorem addSum_eq (sum x : UInt32) (h : sum.toNat + x.toNat < 2 ^ 32) :
    ∃ s, addSum sum x = .ok s ∧ s.toNat = sum.toNat + x.toNat := by
  refine ⟨sum + x, if_pos h, ?_⟩
  rw [UInt32.toNat_add, Nat.mod_eq_of_lt h]

theorem toNat_word (high low : UInt8) : (ofBe16 [high, low]).toUInt32.toNat = high.toNat * 256 + low.toNat := by
  have hhigh := high.toNat_lt
  have hlow := low.toNat_lt
  simp only [ofBe16, ofBe, List.foldl, UInt16.toNat_toUInt32, UInt16.toNat_ofNat']
  omega

theorem addWords_eq (sum : UInt32) (b : Bytes) (h : sum.toNat + (wordsOf b).sum < 2 ^ 32) :
    ∃ s, addWords sum b = .ok s ∧ s.toNat = sum.toNat + (wordsOf b).sum := by
  induction b using wordsOf.induct generalizing sum with
  | case1 => exact ⟨sum, rfl, rfl⟩
  | case2 last =>
    have hlast := last.toNat_lt
    have hword : (last.toUInt32 <<< 8).toNat = last.toNat * 256 := by
      simp only [UInt32.toNat_shiftLeft, UInt8.toNat_toUInt32, Nat.shiftLeft_eq]
      simp
      omega
    simp only [wordsOf, List.sum_cons, List.sum_nil, Nat.add_zero] at h ⊢
    rw [← hword] at h ⊢
    exact addSum_eq sum _ h
  | case3 high low rest ih =>
    simp only [wordsOf, List.sum_cons] at h ⊢
    rw [← toNat_word high low] at h ⊢
    obtain ⟨s, hs, hsum⟩ := addSum_eq sum (ofBe16 [high, low]).toUInt32 (by omega)
    obtain ⟨s', hs', hsum'⟩ := ih s (by omega)
    refine ⟨s', ?_, by omega⟩
    rw [addWords, hs]
    exact hs'

theorem toNat_high (sum : UInt32) : (sum >>> 16).toNat = sum.toNat / 65536 := by
  simp [UInt32.toNat_shiftRight, Nat.shiftRight_eq_div_pow]

theorem toNat_low (sum : UInt32) : (sum &&& 0xffff).toNat = sum.toNat % 65536 := by
  rw [UInt32.toNat_and]
  exact Nat.and_two_pow_sub_one_eq_mod sum.toNat 16

theorem high_eq_zero_iff (sum : UInt32) : sum >>> 16 = 0 ↔ sum.toNat ≤ 0xffff := by
  rw [← UInt32.toNat_inj, toNat_high]
  show sum.toNat / 65536 = 0 ↔ _
  omega

/-- Folding ends, and the half that is left stands for the sum. -/
theorem foldSum_eq (fuel : Nat) (sum : UInt32) (h : sum.toNat ≤ fuel) :
    ∃ s, foldSum fuel sum = .ok s ∧ OnesComplement.Represents 0xffff sum.toNat s.toNat := by
  induction fuel generalizing sum with
  | zero =>
    have hsmall : sum.toNat ≤ 0xffff := by omega
    exact ⟨sum, if_pos ((high_eq_zero_iff sum).mpr hsmall), OnesComplement.represents_self hsmall⟩
  | succ fuel ih =>
    by_cases hsmall : sum.toNat ≤ 0xffff
    · exact ⟨sum, if_pos ((high_eq_zero_iff sum).mpr hsmall), OnesComplement.represents_self hsmall⟩
    · have hlow := toNat_low sum
      have hhigh := toNat_high sum
      have hlt := sum.toNat_lt
      obtain ⟨s, hs, hsum⟩ := addSum_eq (sum &&& 0xffff) (sum >>> 16) (by omega)
      obtain ⟨s', hs', hstands⟩ := ih s (by omega)
      refine ⟨s', ?_, ?_⟩
      · rw [foldSum, if_neg (fun hzero => hsmall ((high_eq_zero_iff sum).mp hzero)), hs]
        exact hs'
      · rw [hsum, hlow, hhigh] at hstands
        exact hstands.carry

/-- The addresses, the length and the next header of a message. -/
def pseudoHeader (src dst : ByteVec 16) (length : Nat) : Bytes :=
  src.toBytes ++ (dst.toBytes ++ (be32 (UInt32.ofNat length) ++ [0, 0, 0, ipv6NextHeaderIcmpv6]))

/-- Pseudo-header and message, added up in ones' complement. -/
def onesSum (src dst : ByteVec 16) (icmpv6Body : Bytes) : Nat :=
  OnesComplement.sum 0xffff (wordsOf (pseudoHeader src dst icmpv6Body.length ++ icmpv6Body))

theorem sum_wordsOf_be32 (x : UInt32) : (wordsOf (be32 x)).sum = x.toNat / 65536 + x.toNat % 65536 := by
  have hx := x.toNat_lt
  simp [be32, toBe, wordsOf]
  omega

theorem sum_wordsOf_pseudoHeader (src dst : ByteVec 16) (length : Nat) (icmpv6Body : Bytes) :
    (wordsOf (pseudoHeader src dst length ++ icmpv6Body)).sum =
      (wordsOf src.toBytes).sum + (wordsOf dst.toBytes).sum + (UInt32.ofNat length >>> 16).toNat +
        (UInt32.ofNat length &&& 0xffff).toNat + 58 + (wordsOf icmpv6Body).sum := by
  have hlength := sum_wordsOf_be32 (UInt32.ofNat length)
  rw [wordsOf_append (by simp [pseudoHeader]), pseudoHeader, wordsOf_append (by simp), wordsOf_append (by simp),
    wordsOf_append (by simp), toNat_high, toNat_low]
  simp only [List.sum_append, hlength, wordsOf, List.sum_cons, List.sum_nil]
  simp [ipv6NextHeaderIcmpv6]
  omega

/-- Over a body of at most 65535 bytes nothing overflows and the checksum is the complement
of what pseudo-header and body add up to. -/
theorem icmpv6Checksum_eq (src dst : ByteVec 16) (icmpv6Body : Bytes) (h : icmpv6Body.length ≤ 65535) :
    ∃ checksum, icmpv6Checksum src dst icmpv6Body = .ok checksum ∧
      checksum.toNat = 0xffff - onesSum src dst icmpv6Body := by
  have hsrc := sum_wordsOf_le src.toBytes
  have hdst := sum_wordsOf_le dst.toBytes
  have hbody := sum_wordsOf_le icmpv6Body
  have hlow := toNat_low (UInt32.ofNat icmpv6Body.length)
  have hhigh := toNat_high (UInt32.ofNat icmpv6Body.length)
  have hlength : (UInt32.ofNat icmpv6Body.length).toNat = icmpv6Body.length :=
    UInt32.toNat_ofNat_of_lt' (by simp only [UInt32.size]; omega)
  rw [ByteVec.length_toBytes] at hsrc hdst
  have hzero : (0 : UInt32).toNat = 0 := rfl
  have hnext : ipv6NextHeaderIcmpv6.toUInt32.toNat = 58 := rfl
  obtain ⟨s₁, h₁, hs₁⟩ := addWords_eq 0 src.toBytes (by omega)
  obtain ⟨s₂, h₂, hs₂⟩ := addWords_eq s₁ dst.toBytes (by omega)
  obtain ⟨s₃, h₃, hs₃⟩ := addSum_eq s₂ (UInt32.ofNat icmpv6Body.length >>> 16) (by omega)
  obtain ⟨s₄, h₄, hs₄⟩ := addSum_eq s₃ (UInt32.ofNat icmpv6Body.length &&& 0xffff) (by omega)
  obtain ⟨s₅, h₅, hs₅⟩ := addSum_eq s₄ ipv6NextHeaderIcmpv6.toUInt32 (by omega)
  obtain ⟨s₆, h₆, hs₆⟩ := addWords_eq s₅ icmpv6Body (by omega)
  obtain ⟨s₇, h₇, hstands⟩ := foldSum_eq s₆.toNat s₆ le_rfl
  have htotal : s₆.toNat = (wordsOf (pseudoHeader src dst icmpv6Body.length ++ icmpv6Body)).sum := by
    rw [sum_wordsOf_pseudoHeader]
    omega
  rw [htotal] at hstands
  have hones : onesSum src dst icmpv6Body = s₇.toNat := OnesComplement.sum_eq_of_represents (wordsOf_le _) hstands
  have hhalf : s₇.toUInt16.toNat = s₇.toNat := by
    have hle := hstands.le
    rw [UInt32.toNat_toUInt16]
    omega
  refine ⟨~~~s₇.toUInt16, ?_, ?_⟩
  · simp only [icmpv6Checksum, h₁, h₂, h₃, h₄, h₅, h₆, h₇, ok_bind]
    rfl
  · rw [UInt16.toNat_not, hhalf, hones]
    rfl

/-! ### Finished messages -/

/-- The checksum put into its field makes up what the sum lacks. -/
theorem onesSum_finished (src dst : ByteVec 16) (icmpv6Type code : UInt8) (rest : Bytes) {checksum : UInt16}
    (h : checksum.toNat = 0xffff - onesSum src dst (icmpv6Type :: code :: 0 :: 0 :: rest)) :
    onesSum src dst (icmpv6Type :: code :: (checksum >>> 8).toUInt8 :: (checksum &&& 0xff).toUInt8 :: rest) = 0xffff := by
  have hstands := OnesComplement.represents_sum
    (wordsOf_le (pseudoHeader src dst (rest.length + 4) ++ icmpv6Type :: code :: 0 :: 0 :: rest))
  have hwhole : (checksum >>> 8).toUInt8.toNat * 256 + (checksum &&& 0xff).toUInt8.toNat = checksum.toNat := by
    have hchecksum := checksum.toNat_lt
    have hlow : (checksum &&& 0xff).toNat = checksum.toNat % 256 := by
      rw [UInt16.toNat_and]
      exact Nat.and_two_pow_sub_one_eq_mod checksum.toNat 8
    have hhigh : (checksum >>> 8).toNat = checksum.toNat / 256 := by
      simp [UInt16.toNat_shiftRight, Nat.shiftRight_eq_div_pow]
    rw [UInt16.toNat_toUInt8, UInt16.toNat_toUInt8, hlow, hhigh]
    omega
  have hsum : (wordsOf (pseudoHeader src dst (rest.length + 4) ++
        icmpv6Type :: code :: (checksum >>> 8).toUInt8 :: (checksum &&& 0xff).toUInt8 :: rest)).sum =
      (wordsOf (pseudoHeader src dst (rest.length + 4) ++ icmpv6Type :: code :: 0 :: 0 :: rest)).sum +
        (0xffff - onesSum src dst (icmpv6Type :: code :: 0 :: 0 :: rest)) := by
    rw [wordsOf_append (by simp [pseudoHeader]), wordsOf_append (by simp [pseudoHeader])]
    simp only [wordsOf, List.sum_append, List.sum_cons, hwhole, ← h]
    simp
    omega
  refine OnesComplement.sum_eq_of_represents (wordsOf_le _) ?_
  show OnesComplement.Represents 0xffff (wordsOf (pseudoHeader src dst (rest.length + 4) ++ _)).sum 0xffff
  rw [hsum]
  exact hstands.complement

/-- A message with its checksum adds up to 0xffff, and is found right. -/
def ChecksumValid (src dst : ByteVec 16) (icmpv6Body : Bytes) : Prop :=
  onesSum src dst icmpv6Body = 0xffff ∧ icmpv6Checksum src dst icmpv6Body = .ok 0

theorem withChecksum_valid (src dst : ByteVec 16) (icmpv6Type code : UInt8) {rest : Bytes} (h : rest.length + 4 ≤ 65535) :
    ∃ icmpv6Body, withChecksum src dst (icmpv6Type :: code :: 0 :: 0 :: rest) = .ok icmpv6Body ∧
      ChecksumValid src dst icmpv6Body := by
  obtain ⟨checksum, hread, hchecksum⟩ :=
    icmpv6Checksum_eq src dst (icmpv6Type :: code :: 0 :: 0 :: rest) h
  have hones := onesSum_finished src dst icmpv6Type code rest hchecksum
  refine ⟨icmpv6Type :: code :: (checksum >>> 8).toUInt8 :: (checksum &&& 0xff).toUInt8 :: rest, ?_, hones, ?_⟩
  · rw [withChecksum, hread]
    rfl
  · obtain ⟨zero, hfinal, hzero⟩ := icmpv6Checksum_eq src dst
      (icmpv6Type :: code :: (checksum >>> 8).toUInt8 :: (checksum &&& 0xff).toUInt8 :: rest) h
    rw [hones] at hzero
    obtain rfl : zero = 0 := UInt16.toNat_inj.mp hzero
    exact hfinal

theorem buildNa_valid (targetIp : ByteVec 16) (targetMac : Mac) (solicited overrideFlag : Bool)
    (srcIp dstIp : ByteVec 16) : ∃ icmpv6Body,
      buildNa targetIp targetMac solicited overrideFlag srcIp dstIp = .ok icmpv6Body ∧ ChecksumValid srcIp dstIp icmpv6Body :=
  withChecksum_valid srcIp dstIp icmpv6Na 0 (by simp)

theorem buildRa_valid (ourIp dstIp pfx : ByteVec 16) (prefixLen : UInt8) : ∃ icmpv6Body,
    buildRa ourIp dstIp pfx prefixLen = .ok icmpv6Body ∧ ChecksumValid ourIp dstIp icmpv6Body :=
  withChecksum_valid ourIp dstIp icmpv6Ra 0 (by simp)

/-- Whatever message comes, it is handled, and a reply has a checksum that is valid between
two addresses. -/
theorem handleNdp_valid (icmpv6Body : Bytes) (srcIp : ByteVec 16) (membership : NetworkMembership)
    (ourIpv6Prefix : Option (Ipv6Addr × UInt8)) : ∃ action,
      handleNdp icmpv6Body srcIp membership ourIpv6Prefix = .ok action ∧
        ∀ reply, action = .reply reply → ∃ src dst, ChecksumValid src dst reply := by
  unfold handleNdp
  by_cases hempty : icmpv6Body.isEmpty
  · exact ⟨.ignore, if_pos hempty, fun _ h => nomatch h⟩
  · rw [if_neg hempty]
    simp only
    split
    · unfold handleNs
      split
      · exact ⟨.ignore, rfl, fun _ h => nomatch h⟩
      · simp only
        split
        · exact ⟨.ignore, rfl, fun _ h => nomatch h⟩
        · obtain ⟨na, hna, hvalid⟩ := buildNa_valid _ _ _ _ _ _
          rw [hna]
          exact ⟨.reply na, rfl, fun reply h => ⟨_, _, NdpAction.reply.inj h ▸ hvalid⟩⟩
    · split
      · unfold handleRs
        split
        · exact ⟨.ignore, rfl, fun _ h => nomatch h⟩
        · rename_i addr len
          obtain ⟨ra, hra, hvalid⟩ := buildRa_valid linkLocalRouter allNodes addr len
          rw [hra]
          exact ⟨.reply ra, rfl, fun reply h => ⟨_, _, NdpAction.reply.inj h ▸ hvalid⟩⟩
      · exact ⟨.ignore, rfl, fun _ h => nomatch h⟩

/-- Every message that is built adds up to 0xffff with its pseudo-header, so that the
checksum over it is zero, and the checksum over any body of at most 65535 bytes is found
without overflow and in finitely many rounds of folding. -/
theorem built_checksums :
    (∀ targetIp targetMac solicited overrideFlag srcIp dstIp, ∃ icmpv6Body,
      buildNa targetIp targetMac solicited overrideFlag srcIp dstIp = .ok icmpv6Body ∧
        ChecksumValid srcIp dstIp icmpv6Body) ∧
    (∀ ourIp dstIp pfx prefixLen, ∃ icmpv6Body, buildRa ourIp dstIp pfx prefixLen = .ok icmpv6Body ∧
      ChecksumValid ourIp dstIp icmpv6Body) ∧
    ∀ (src dst : ByteVec 16) (icmpv6Body : Bytes), icmpv6Body.length ≤ 65535 →
      ∃ checksum, icmpv6Checksum src dst icmpv6Body = .ok checksum := by
  refine ⟨buildNa_valid, buildRa_valid, fun src dst icmpv6Body h => ?_⟩
  obtain ⟨checksum, hread, -⟩ := icmpv6Checksum_eq src dst icmpv6Body h
  exact ⟨checksum, hread⟩

/-- An odd body, and an advertisement between two addresses of zeros. -/
theorem built_checksums_zero :
    (∃ checksum, icmpv6Checksum (ByteVec.zero 16) (ByteVec.zero 16) [icmpv6Na, 0, 1] = .ok checksum) ∧
    ∃ icmpv6Body, buildNa (ByteVec.zero 16) (ByteVec.zero 6) true true (ByteVec.zero 16) (ByteVec.zero 16) =
        .ok icmpv6Body ∧ ChecksumValid (ByteVec.zero 16) (ByteVec.zero 16) icmpv6Body :=
  ⟨built_checksums.2.2 (ByteVec.zero 16) (ByteVec.zero 16) [icmpv6Na, 0, 1] (by decide),
    built_checksums.1 (ByteVec.zero 16) (ByteVec.zero 6) true true (ByteVec.zero 16) (ByteVec.zero 16)⟩

end ManyTier.Ndp
