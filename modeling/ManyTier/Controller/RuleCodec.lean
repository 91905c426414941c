import ManyTier.Controller.RuleFields

/-! The value bytes of rules and the fields they spell.

A rule type has at most one layout of fields (`layoutOf`), whatever its flags. Fields of
that layout that are in range are read back from their value bytes, and so is whatever was
read from some value (`decodeRuleFields_roundTrip`). -/
namespace ManyTier.Controller

/-- The layouts of value bytes. -/
inductive RuleLayout where
  | forward | ztAddress | vlanId | vlanPcp | vlanDei | mac | ipv4 | ipv6 | ipTos | ipProtocol | etherType | icmp
  | portRange | characteristics | frameSizeRange | randomProbability | tag | integerRange
  deriving DecidableEq

/-- The layout of a rule type; actions without a value and unknown types have none. -/
def layoutOf (ruleType : UInt8) : Option RuleLayout :=
  let type := ruleType &&& 0x3f
  if type ∈ [actionTee, actionWatch, actionRedirect] then some .forward
  else if type ∈ [matchSourceZerotierAddress, matchDestZerotierAddress] then some .ztAddress
  else if type = matchVlanId then some .vlanId
  else if type = matchVlanPcp then some .vlanPcp
  else if type = matchVlanDei then some .vlanDei
  else if type ∈ [matchMacSource, matchMacDest] then some .mac
  else if type ∈ [matchIpv4Source, matchIpv4Dest] then some .ipv4
  else if type ∈ [matchIpv6Source, matchIpv6Dest] then some .ipv6
  else if type = matchIpTos then some .ipTos
  else if type = matchIpProtocol then some .ipProtocol
  else if type = matchEtherType then some .etherType
  else if type = matchIcmp then some .icmp
  else if type ∈ [matchIpSourcePortRange, matchIpDestPortRange] then some .portRange
  else if type = matchCharacteristics then some .characteristics
  else if type = matchFrameSizeRange then some .frameSizeRange
  else if type = matchRandom then some .randomProbability
  else if type ∈ [matchTagsDifference, matchTagsBitwiseAnd, matchTagsBitwiseOr, matchTagsBitwiseXor, matchTagsEqual,
      matchTagSender, matchTagReceiver] then some .tag
  else if type = matchIntegerRange then some .integerRange
  else none

/-- What a value is read as, for a layout; nothing if the value is too short. -/
def readLayout (value : Bytes) : RuleLayout → Option RuleFields
  | .forward =>
    if 14 ≤ value.length then some (.forward (u64At value 0) (u32At value 8) (u16At value 12)) else none
  | .ztAddress => if 5 ≤ value.length then some (.ztAddress (ztAddressToU64 (fieldAt 5 value 0))) else none
  | .vlanId => if 2 ≤ value.length then some (.vlanId (u16At value 0)) else none
  | .vlanPcp => if 1 ≤ value.length then some (.vlanPcp (byteAt value 0)) else none
  | .vlanDei => if 1 ≤ value.length then some (.vlanDei (byteAt value 0)) else none
  | .mac => if 6 ≤ value.length then some (.mac (fieldAt 6 value 0)) else none
  | .ipv4 => if 5 ≤ value.length then some (.ipv4 (fieldAt 4 value 0) (byteAt value 4)) else none
  | .ipv6 => if 17 ≤ value.length then some (.ipv6 (fieldAt 16 value 0) (byteAt value 16)) else none
  | .ipTos =>
    if 3 ≤ value.length then some (.ipTos (byteAt value 0) (byteAt value 1) (byteAt value 2)) else none
  | .ipProtocol => if 1 ≤ value.length then some (.ipProtocol (byteAt value 0)) else none
  | .etherType => if 2 ≤ value.length then some (.etherType (u16At value 0)) else none
  | .icmp =>
    if 3 ≤ value.length then
      some (.icmp (byteAt value 0) (if byteAt value 2 &&& 0x01 ≠ 0 then some (byteAt value 1) else none))
    else none
  | .portRange => if 4 ≤ value.length then some (.portRange (u16At value 0) (u16At value 2)) else none
  | .characteristics => if 8 ≤ value.length then some (.characteristics (u64At value 0)) else none
  | .frameSizeRange => if 4 ≤ value.length then some (.frameSizeRange (u16At value 0) (u16At value 2)) else none
  | .randomProbability => if 4 ≤ value.length then some (.randomProbability (u32At value 0)) else none
  | .tag => if 8 ≤ value.length then some (.tag (u32At value 0) (u32At value 4)) else none
  | .integerRange =>
    if 19 ≤ value.length then
      let format := byteAt value 18
      some (.integerRange (u64At value 0) (u64At value 8) (u16At value 16) (format &&& 0x80 ≠ 0)
        ((format &&& 0x3f) + 1))
    else none

/-- The fields of a rule, by its type. -/
def decodeRuleFields (ruleType : UInt8) (value : Bytes) : Option RuleFields :=
  (layoutOf ruleType).bind (readLayout value)

namespace RuleFields

def layout : RuleFields → RuleLayout
  | forward .. => .forward
  | ztAddress .. => .ztAddress
  | vlanId .. => .vlanId
  | vlanPcp .. => .vlanPcp
  | vlanDei .. => .vlanDei
  | mac .. => .mac
  | ipv4 .. => .ipv4
  | ipv6 .. => .ipv6
  | ipTos .. => .ipTos
  | ipProtocol .. => .ipProtocol
  | etherType .. => .etherType
  | icmp .. => .icmp
  | portRange .. => .portRange
  | characteristics .. => .characteristics
  | frameSizeRange .. => .frameSizeRange
  | randomProbability .. => .randomProbability
  | tag .. => .tag
  | integerRange .. => .integerRange

/-- A ZeroTier address has 40 bits, and the bit count of an integer range is 1 to 64. -/
def InRange : RuleFields → Prop
  | ztAddress address => address.toNat < 2 ^ 40
  | integerRange _ _ _ _ bits => 1 ≤ bits.toNat ∧ bits.toNat ≤ 64
  | _ => True

/-- The fields that are read back: of an address the low 40 bits, of a bit count less one
the low six. -/
def stored : RuleFields → RuleFields
  | ztAddress address => .ztAddress (ztAddressToU64 (u64ToZtAddress address))
  | integerRange start stop idx little bits => .integerRange start stop idx little (((bits - 1) &&& 0x3f) + 1)
  | f => f

end RuleFields

/-! ### Reading back -/

/-- The format byte has the count in its low bits and the byte order in its high bit. -/
theorem format_byte (bits : UInt8) (little : Bool) :
    let format := ((bits - 1) &&& 0x3f) ||| (if little then 0x80 else 0)
    decide (format &&& 0x80 ≠ 0) = little ∧ format &&& 0x3f = (bits - 1) &&& 0x3f := by
  revert bits
  cases little <;> exact forall_byte (by decide +kernel)

/-- A count from 1 to 64 survives. -/
theorem count_kept {bits : UInt8} (h : 1 ≤ bits.toNat ∧ bits.toNat ≤ 64) : ((bits - 1) &&& 0x3f) + 1 = bits := by
  have hall : ∀ bits : UInt8, 1 ≤ bits.toNat ∧ bits.toNat ≤ 64 → ((bits - 1) &&& 0x3f) + 1 = bits :=
    forall_byte (by decide +kernel)
  exact hall bits h

/-- Of an address the low 40 bits are kept. -/
theorem toNat_ztAddressToU64 (address : UInt64) :
    (ztAddressToU64 (u64ToZtAddress address)).toNat = address.toNat % 2 ^ 40 := by
  have hbytes : (u64ToZtAddress address).toBytes = toBe 5 address.toNat := by
    rw [u64ToZtAddress, fieldAt, ByteVec.toBytes_ofBytes 5 _ (by simp)]
    rfl
  have hmod := ofBe_toBe 5 address.toNat
  have hlt : address.toNat % 256 ^ 5 < UInt64.size := by
    have := Nat.mod_lt address.toNat (by decide : 0 < 256 ^ 5)
    simp only [UInt64.size]
    omega
  rw [ztAddressToU64, hbytes, hmod, UInt64.toNat_ofNat_of_lt' hlt]
  rfl

theorem ztAddressToU64_u64ToZtAddress {address : UInt64} (h : address.toNat < 2 ^ 40) :
    ztAddressToU64 (u64ToZtAddress address) = address := by
  rw [← UInt64.toNat_inj, toNat_ztAddressToU64, Nat.mod_eq_of_lt h]

/-- What is read from the value bytes of some fields. -/
theorem readLayout_encodeRuleFields (f : RuleFields) : readLayout (encodeRuleFields f) f.layout = some f.stored := by
  cases f with
  | forward address flags length =>
    simp [readLayout, encodeRuleFields, RuleFields.layout, RuleFields.stored, u32At_append, u16At_append]
  | ztAddress address =>
    have hslice : fieldAt 5 (slice (be64 address) 3 5) 0 = u64ToZtAddress address := by
      rw [slice, fieldAt_take 5 ((be64 address).drop 3) 5 0 le_rfl]
      rfl
    simp [readLayout, encodeRuleFields, RuleFields.layout, RuleFields.stored, hslice]
  | vlanId v => simp [readLayout, encodeRuleFields, RuleFields.layout, RuleFields.stored]
  | vlanPcp v => rfl
  | vlanDei v => rfl
  | mac mac => simp [readLayout, encodeRuleFields, RuleFields.layout, RuleFields.stored]
  | ipv4 ip mask => simp [readLayout, encodeRuleFields, RuleFields.layout, RuleFields.stored, byteAt_append]
  | ipv6 ip mask => simp [readLayout, encodeRuleFields, RuleFields.layout, RuleFields.stored, byteAt_append]
  | ipTos mask start stop => rfl
  | ipProtocol v => rfl
  | etherType v => simp [readLayout, encodeRuleFields, RuleFields.layout, RuleFields.stored]
  | icmp icmpType icmpCode => cases icmpCode <;> simp [readLayout, encodeRuleFields, RuleFields.layout, RuleFields.stored]
  | portRange start stop =>
    simp [readLayout, encodeRuleFields, RuleFields.layout, RuleFields.stored, u16At_append]
  | characteristics v => simp [readLayout, encodeRuleFields, RuleFields.layout, RuleFields.stored]
  | frameSizeRange start stop =>
    simp [readLayout, encodeRuleFields, RuleFields.layout, RuleFields.stored, u16At_append]
  | randomProbability v => simp [readLayout, encodeRuleFields, RuleFields.layout, RuleFields.stored]
  | tag id value => simp [readLayout, encodeRuleFields, RuleFields.layout, RuleFields.stored, u32At_append]
  | integerRange start stop idx little bits =>
    obtain ⟨hlittle, hbits⟩ := format_byte bits little
    simp only [readLayout, encodeRuleFields, RuleFields.layout, RuleFields.stored]
    simp [u64At_append, u16At_append, byteAt_append]
    exact ⟨by simpa using hlittle, hbits⟩

/-- Fields that are in range are stored as they are. -/
theorem RuleFields.stored_of_inRange {f : RuleFields} (h : f.InRange) : f.stored = f := by
  cases f with
  | ztAddress address =>
    rw [RuleFields.stored, ztAddressToU64_u64ToZtAddress h]
  | integerRange start stop idx little bits =>
    rw [RuleFields.stored, count_kept h]
  | _ => rfl

/-- What is read is in range, and its layout is the one it was read by. -/
theorem readLayout_inRange {layout : RuleLayout} {value : Bytes} {f : RuleFields} (h : readLayout value layout = some f) :
    f.layout = layout ∧ f.InRange := by
  have haddress : ∀ a : ByteVec 5, (ztAddressToU64 a).toNat < 2 ^ 40 := by
    intro a
    have hlt := ofBe_lt a.toBytes
    rw [ByteVec.length_toBytes] at hlt
    rw [ztAddressToU64, UInt64.toNat_ofNat_of_lt' (by simp only [UInt64.size]; omega)]
    omega
  have hcount : ∀ format : UInt8, 1 ≤ ((format &&& 0x3f) + 1).toNat ∧ ((format &&& 0x3f) + 1).toNat ≤ 64 :=
    forall_byte (by decide +kernel)
  unfold readLayout at h
  cases layout with
  | ztAddress =>
    obtain ⟨-, heq⟩ := Option.ite_none_right_eq_some.mp h
    obtain rfl := Option.some.inj heq
    exact ⟨rfl, haddress _⟩
  | integerRange =>
    obtain ⟨-, heq⟩ := Option.ite_none_right_eq_some.mp h
    obtain rfl := Option.some.inj heq
    exact ⟨rfl, hcount _⟩
  | _ =>
    obtain ⟨-, heq⟩ := Option.ite_none_right_eq_some.mp h
    obtain rfl := Option.some.inj heq
    exact ⟨rfl, trivial⟩

theorem decodeRuleFields_of_inRange {ruleType : UInt8} {f : RuleFields} (hlayout : layoutOf ruleType = some f.layout)
    (hrange : f.InRange) : decodeRuleFields ruleType (encodeRuleFields f) = some f := by
  rw [decodeRuleFields, hlayout, Option.bind_some, readLayout_encodeRuleFields, f.stored_of_inRange hrange]

/-- What was read from a value is read from its own bytes too. -/
theorem decodeRuleFields_of_read {ruleType : UInt8} {value : Bytes} {f : RuleFields}
    (h : decodeRuleFields ruleType value = some f) : decodeRuleFields ruleType (encodeRuleFields f) = some f := by
  obtain ⟨layout, hlayout, hvalue⟩ := Option.bind_eq_some_iff.mp h
  obtain ⟨rfl, hrange⟩ := readLayout_inRange hvalue
  exact decodeRuleFields_of_inRange hlayout hrange

/-- Whatever the flags in the type byte: fields of the layout of a type that are in range
are read back from their value bytes, and so are all fields that were read from a value. -/
theorem decodeRuleFields_roundTrip :
    (∀ (ruleType : UInt8) (f : RuleFields), layoutOf ruleType = some f.layout → f.InRange →
      decodeRuleFields ruleType (encodeRuleFields f) = some f) ∧
    ∀ (ruleType : UInt8) (value : Bytes) (f : RuleFields), decodeRuleFields ruleType value = some f →
      decodeRuleFields ruleType (encodeRuleFields f) = some f :=
  ⟨fun _ _ hlayout hrange => decodeRuleFields_of_inRange hlayout hrange, fun _ _ _ hread => decodeRuleFields_of_read hread⟩

theorem decodeRuleFields_roundTrip_range :
    decodeRuleFields 0xf3 (encodeRuleFields (.integerRange 1 2 3 true 64)) = some (.integerRange 1 2 3 true 64) ∧
    decodeRuleFields matchVlanId (encodeRuleFields (.vlanId 0x0102)) = some (.vlanId 0x0102) :=
  ⟨decodeRuleFields_roundTrip.1 0xf3 (.integerRange 1 2 3 true 64) (by decide) ⟨by decide, by decide⟩,
    decodeRuleFields_roundTrip.2 matchVlanId [1, 2, 3] (.vlanId 0x0102) (by decide)⟩

end ManyTier.Controller
