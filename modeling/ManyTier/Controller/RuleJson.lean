import ManyTier.Controller.RuleCodec
import ManyTier.Lib.HexText
import ManyTier.Lib.IpRead

/-! The fields of rules in JSON.

The API shows the fields of a rule under names, addresses and masks as texts, and takes
them back. What was read from a value is taken back as it was, but for the address of a
forwarding action, of which only 40 bits are shown (`ruleFields_json_iff`). -/
namespace ManyTier.Controller

def formatNodeId (addr : ByteVec 5) : Bytes := hexBytes addr.toBytes

/-- Six bytes between colons. -/
def formatMac (mac : ByteVec 6) : Bytes := [0x3a].intercalate (mac.toBytes.map hexByte)

def jsonText (b : Bytes) : Json := .string (Text.ofBytes b)

def jsonNumber (n : UInt64) : Json := .number (.posInt n)

/-- An object with the given names and values. -/
def jsonObject (entries : List (List Char × Json)) : Json := .object (entries.map fun e => (Text.literal e.1, e.2))

/-- The fields under the names of the API. -/
def ruleFieldsToJson : RuleFields → Json
  | .forward address flags length => jsonObject
    [(['a', 'd', 'd', 'r', 'e', 's', 's'], jsonText (formatNodeId (u64ToZtAddress address))),
      (['f', 'l', 'a', 'g', 's'], jsonNumber flags.toUInt64),
      (['l', 'e', 'n', 'g', 't', 'h'], jsonNumber length.toUInt64)]
  | .ztAddress address => jsonObject [(['z', 't'], jsonText (formatNodeId (u64ToZtAddress address)))]
  | .vlanId v => jsonObject [(['v', 'l', 'a', 'n', 'I', 'd'], jsonNumber v.toUInt64)]
  | .vlanPcp v => jsonObject [(['v', 'l', 'a', 'n', 'P', 'c', 'p'], jsonNumber v.toUInt64)]
  | .vlanDei v => jsonObject [(['v', 'l', 'a', 'n', 'D', 'e', 'i'], jsonNumber v.toUInt64)]
  | .mac mac => jsonObject [(['m', 'a', 'c'], jsonText (formatMac mac))]
  | .ipv4 ip mask => jsonObject [(['i', 'p'], jsonText (formatIpv4 ip ++ 0x2f :: formatDecimal mask.toNat))]
  | .ipv6 ip mask => jsonObject [(['i', 'p'], jsonText (formatIpv6 ip ++ 0x2f :: formatDecimal mask.toNat))]
  | .ipTos mask start stop => jsonObject
    [(['m', 'a', 's', 'k'], jsonNumber mask.toUInt64), (['s', 't', 'a', 'r', 't'], jsonNumber start.toUInt64),
      (['e', 'n', 'd'], jsonNumber stop.toUInt64)]
  | .ipProtocol v => jsonObject [(['i', 'p', 'P', 'r', 'o', 't', 'o', 'c', 'o', 'l'], jsonNumber v.toUInt64)]
  | .etherType v => jsonObject [(['e', 't', 'h', 'e', 'r', 'T', 'y', 'p', 'e'], jsonNumber v.toUInt64)]
  | .icmp icmpType icmpCode => jsonObject
    [(['i', 'c', 'm', 'p', 'T', 'y', 'p', 'e'], jsonNumber icmpType.toUInt64),
      (['i', 'c', 'm', 'p', 'C', 'o', 'd', 'e'], (icmpCode.map fun c => jsonNumber c.toUInt64).getD .null)]
  | .portRange start stop => jsonObject
    [(['s', 't', 'a', 'r', 't'], jsonNumber start.toUInt64), (['e', 'n', 'd'], jsonNumber stop.toUInt64)]
  | .characteristics v => jsonObject [(['m', 'a', 's', 'k'], jsonText (hexBytes (be64 v)))]
  | .frameSizeRange start stop => jsonObject
    [(['s', 't', 'a', 'r', 't'], jsonNumber start.toUInt64), (['e', 'n', 'd'], jsonNumber stop.toUInt64)]
  | .randomProbability v => jsonObject
    [(['p', 'r', 'o', 'b', 'a', 'b', 'i', 'l', 'i', 't', 'y'], jsonNumber v.toUInt64)]
  | .tag id value => jsonObject
    [(['i', 'd'], jsonNumber id.toUInt64), (['v', 'a', 'l', 'u', 'e'], jsonNumber value.toUInt64)]
  | .integerRange start stop idx little bits => jsonObject
    [(['s', 't', 'a', 'r', 't'], jsonText (hexBytes (be64 start))),
      (['e', 'n', 'd'], jsonText (hexBytes (be64 stop))), (['i', 'd', 'x'], jsonNumber idx.toUInt64),
      (['l', 'i', 't', 't', 'l', 'e'], .bool little), (['b', 'i', 't', 's'], jsonNumber bits.toUInt64)]

/-- A rule as the API shows it. -/
def ruleToResponse (rule : Rule) : RuleResponse where
  ruleType := rule.ruleType
  not := rule.notFlag
  orFlag := rule.orFlag
  value := rule.value
  fields := (decodeRuleFields rule.ruleType rule.value).map ruleFieldsToJson

/-! ### Fields by layout -/

/-- The types of a layout, without flags. -/
def RuleLayout.types : RuleLayout → List UInt8
  | forward => [actionTee, actionWatch, actionRedirect]
  | ztAddress => [matchSourceZerotierAddress, matchDestZerotierAddress]
  | vlanId => [matchVlanId]
  | vlanPcp => [matchVlanPcp]
  | vlanDei => [matchVlanDei]
  | mac => [matchMacSource, matchMacDest]
  | ipv4 => [matchIpv4Source, matchIpv4Dest]
  | ipv6 => [matchIpv6Source, matchIpv6Dest]
  | ipTos => [matchIpTos]
  | ipProtocol => [matchIpProtocol]
  | etherType => [matchEtherType]
  | icmp => [matchIcmp]
  | portRange => [matchIpSourcePortRange, matchIpDestPortRange]
  | characteristics => [matchCharacteristics]
  | frameSizeRange => [matchFrameSizeRange]
  | randomProbability => [matchRandom]
  | tag => [matchTagsDifference, matchTagsBitwiseAnd, matchTagsBitwiseOr, matchTagsBitwiseXor, matchTagsEqual,
      matchTagSender, matchTagReceiver]
  | integerRange => [matchIntegerRange]

theorem mem_types_of_layoutOf {ruleType : UInt8} {layout : RuleLayout} (h : layoutOf ruleType = some layout) :
    ruleType &&& 0x3f ∈ layout.types := by
  have hall : ∀ ruleType : UInt8, (layoutOf ruleType).all fun layout => ruleType &&& 0x3f ∈ layout.types :=
    forall_byte (by decide +kernel)
  have := hall ruleType
  rw [h] at this
  exact of_decide_eq_true this

/-- The flags say nothing about the fields. -/
theorem ruleFieldsFromJson_masked (json : Json) (ruleType : UInt8) :
    ruleFieldsFromJson json ruleType = ruleFieldsFromJson json (ruleType &&& 0x3f) := by
  have hmask : ∀ ruleType : UInt8, (ruleType &&& 0x3f) &&& 0x3f = ruleType &&& 0x3f := forall_byte (by decide +kernel)
  unfold ruleFieldsFromJson
  rw [hmask ruleType]

/-- Types of one layout take the same fields. -/
theorem ruleFieldsFromJson_types (json : Json) {layout : RuleLayout} {a b : UInt8} (ha : a ∈ layout.types)
    (hb : b ∈ layout.types) : ruleFieldsFromJson json a = ruleFieldsFromJson json b := by
  cases layout <;> fin_cases ha <;> fin_cases hb <;> rfl

/-- One type of each layout. -/
def RuleLayout.first (layout : RuleLayout) : UInt8 := layout.types.headD 0

/-- It is enough to read for one type of a layout. -/
theorem ruleFieldsFromJson_first (json : Json) {ruleType : UInt8} {layout : RuleLayout} (h : layoutOf ruleType = some layout) :
    ruleFieldsFromJson json ruleType = ruleFieldsFromJson json layout.first := by
  have hfirst : layout.first ∈ layout.types := by cases layout <;> exact List.mem_cons_self
  rw [ruleFieldsFromJson_masked]
  exact ruleFieldsFromJson_types json (mem_types_of_layoutOf h) hfirst

/-! ### Texts read back -/

theorem bytes_hexText (bytes : Bytes) : (Text.ofBytes (hexBytes bytes)).bytes = hexBytes bytes :=
  Text.bytes_ofBytes fun _ => ascii_hexBytes

/-- An address is shown by its low 40 bits. -/
theorem parseHexU64_formatNodeId (address : UInt64) :
    parseHexU64 (formatNodeId (u64ToZtAddress address)) = some (ztAddressToU64 (u64ToZtAddress address)) := by
  have hne : (u64ToZtAddress address).toBytes ≠ [] := by
    intro h
    have := congrArg List.length h
    simp at this
  have hlt := ofBe_lt (u64ToZtAddress address).toBytes
  rw [ByteVec.length_toBytes] at hlt
  rw [parseHexU64, formatNodeId, parseUnsigned_hexBytes hne (by omega)]
  rfl

theorem splitOn_formatMac (mac : ByteVec 6) : splitOn 0x3a (formatMac mac) = mac.toBytes.map hexByte := by
  refine List.splitOn_intercalate _ (fun part hpart hcolon => ?_) ?_
  · obtain ⟨b, -, rfl⟩ := List.mem_map.mp hpart
    obtain ⟨d, hd, heq⟩ := mem_hexByte hcolon
    exact (formatDigit_ne hd).2.2.2 heq.symm
  · intro hnil
    have hlen := congrArg List.length hnil
    simp at hlen

theorem ascii_formatMac {mac : ByteVec 6} {c : UInt8} (h : c ∈ formatMac mac) : c < 0x80 := by
  rcases mem_intercalate h with rfl | ⟨part, hpart, hc⟩
  · decide
  · obtain ⟨b, -, rfl⟩ := List.mem_map.mp hpart
    obtain ⟨d, hd, rfl⟩ := mem_hexByte hc
    exact formatDigit_lt hd

theorem mapM_parseHexU8 (bytes : Bytes) : (bytes.map hexByte).mapM parseHexU8 = some bytes := by
  induction bytes with
  | nil => rfl
  | cons b rest ih =>
    have hb : parseHexU8 (hexByte b) = some b := by
      rw [parseHexU8, parseUnsigned_hexByte, Option.map_some, UInt8.ofNat_toNat]
    rw [List.map_cons, List.mapM_cons, hb, ih]
    rfl

theorem ascii_formatDecimal {n : Nat} {c : UInt8} (h : c ∈ formatDecimal n) : c < 0x80 := by
  obtain ⟨d, hd, rfl⟩ := mem_formatDecimal h
  exact formatDigit_lt (by omega)

/-- The text of an address and a mask. -/
theorem bytes_prefixText {addr : Bytes} (haddr : ∀ c ∈ addr, c < 0x80) (mask : UInt8) :
    (Text.ofBytes (addr ++ 0x2f :: formatDecimal mask.toNat)).bytes = addr ++ 0x2f :: formatDecimal mask.toNat := by
  refine Text.bytes_ofBytes fun c hc => ?_
  rcases List.mem_append.mp hc with hc | hc
  · exact haddr c hc
  · rcases List.mem_cons.mp hc with rfl | hc
    · decide
    · exact ascii_formatDecimal hc

theorem ascii_formatIpv4 {ip : ByteVec 4} {c : UInt8} (h : c ∈ formatIpv4 ip) : c < 0x80 := by
  rcases mem_formatIpv4 h with rfl | ⟨d, hd, rfl⟩
  · decide
  · exact formatDigit_lt (by omega)

theorem ascii_formatGroups {groups : List UInt16} {c : UInt8} (h : c ∈ formatGroups groups) : c < 0x80 := by
  rcases mem_intercalate h with rfl | ⟨part, hpart, hc⟩
  · decide
  · obtain ⟨g, -, rfl⟩ := List.mem_map.mp hpart
    obtain ⟨d, hd, rfl⟩ := mem_formatDigits (by decide) (by decide) hc
    exact formatDigit_lt hd

theorem ascii_formatIpv6 {ip : ByteVec 16} {c : UInt8} (h : c ∈ formatIpv6 ip) : c < 0x80 := by
  unfold formatIpv6 at h
  split at h
  · have hfront : (ascii [':', ':', 'f', 'f', 'f', 'f', ':']).all (· < 0x80) = true := by decide
    rcases List.mem_append.mp h with h | h
    · exact of_decide_eq_true (List.all_eq_true.mp hfront c h)
    · exact ascii_formatIpv4 h
  · unfold formatPlain at h
    simp only at h
    split at h
    · simp only [List.mem_append, List.mem_cons] at h
      rcases h with h | rfl | rfl | h
      · exact ascii_formatGroups h
      · decide
      · decide
      · exact ascii_formatGroups h
    · exact ascii_formatGroups h

/-- An address and a mask are read back, for a text form that has no slash. -/
theorem jsonPrefix_jsonObject {n : Nat} {parse : Bytes → Option (ByteVec n)} {addr : Bytes} {ip : ByteVec n}
    (mask : UInt8) (haddr : ∀ c ∈ addr, c < 0x80) (hslash : 0x2f ∉ addr) (hparse : parse addr = some ip) :
    jsonPrefix (jsonObject [(['i', 'p'], jsonText (addr ++ 0x2f :: formatDecimal mask.toNat))]) parse = some (ip, mask) := by
  have hget : ((jsonObject [(['i', 'p'], jsonText (addr ++ 0x2f :: formatDecimal mask.toNat))]).get
      (ascii ['i', 'p'])).bind Json.asStr = some (Text.ofBytes (addr ++ 0x2f :: formatDecimal mask.toNat)) := rfl
  simp only [jsonPrefix, hget, Option.bind_eq_bind, Option.bind_some, bytes_prefixText haddr, splitOnce_append hslash,
    hparse, parseU8_formatDecimal]
  rfl

/-! ### Fields shown and taken back -/

/-- What is taken back: of an address the low 40 bits. -/
def RuleFields.shown : RuleFields → RuleFields
  | .forward address flags length => .forward (ztAddressToU64 (u64ToZtAddress address)) flags length
  | .ztAddress address => .ztAddress (ztAddressToU64 (u64ToZtAddress address))
  | f => f

/-- The fields that are shown are taken back for one type of a layout. -/
def RuleFields.TakenBack (f : RuleFields) (layout : RuleLayout) : Prop :=
  ruleFieldsFromJson (ruleFieldsToJson f) layout.first = some f.shown

theorem takenBack_forward (address : UInt64) (flags : UInt32) (length : UInt16) :
    (RuleFields.forward address flags length).TakenBack .forward := by
  have haddress : jsonHexU64 (ruleFieldsToJson (.forward address flags length)) ['a', 'd', 'd', 'r', 'e', 's', 's'] =
      some (ztAddressToU64 (u64ToZtAddress address)) := by
    show parseHexU64 (Text.ofBytes (hexBytes _)).bytes = _
    rw [bytes_hexText]
    exact parseHexU64_formatNodeId address
  show (do
    let address ← jsonHexU64 (ruleFieldsToJson (.forward address flags length)) ['a', 'd', 'd', 'r', 'e', 's', 's']
    return RuleFields.forward address flags.toUInt64.toUInt32 length.toUInt64.toUInt16) = _
  rw [haddress]
  simp [RuleFields.shown]

theorem takenBack_ztAddress (address : UInt64) : (RuleFields.ztAddress address).TakenBack .ztAddress := by
  show (parseHexU64 (Text.ofBytes (hexBytes _)).bytes).map RuleFields.ztAddress = _
  rw [bytes_hexText, ← formatNodeId, parseHexU64_formatNodeId]
  rfl

theorem takenBack_mac (mac : ByteVec 6) : (RuleFields.mac mac).TakenBack .mac := by
  show (do
    let bytes ← (splitOn 0x3a (Text.ofBytes (formatMac mac)).bytes).mapM parseHexU8
    if bytes.length ≠ 6 then none else return ByteVec.ofBytes 6 bytes).map RuleFields.mac = _
  rw [Text.bytes_ofBytes fun _ => ascii_formatMac, splitOn_formatMac, mapM_parseHexU8]
  simp [RuleFields.shown]

theorem takenBack_ipv4 (ip : ByteVec 4) (mask : UInt8) : (RuleFields.ipv4 ip mask).TakenBack .ipv4 := by
  show (jsonPrefix (jsonObject [(['i', 'p'], jsonText (formatIpv4 ip ++ 0x2f :: formatDecimal mask.toNat))])
    parseIpv4Addr).map _ = _
  rw [jsonPrefix_jsonObject mask (fun _ => ascii_formatIpv4) (slash_notMem_formatIpv4 ip) (parseIpv4Addr_formatIpv4 ip)]
  rfl

theorem takenBack_ipv6 (ip : ByteVec 16) (mask : UInt8) : (RuleFields.ipv6 ip mask).TakenBack .ipv6 := by
  show (jsonPrefix (jsonObject [(['i', 'p'], jsonText (formatIpv6 ip ++ 0x2f :: formatDecimal mask.toNat))])
    parseIpv6Addr).map _ = _
  rw [jsonPrefix_jsonObject mask (fun _ => ascii_formatIpv6) (slash_notMem_formatIpv6 ip) (parseIpv6Addr_formatIpv6 ip)]
  rfl

theorem takenBack_icmp (icmpType : UInt8) (icmpCode : Option UInt8) : (RuleFields.icmp icmpType icmpCode).TakenBack .icmp := by
  cases icmpCode with
  | none =>
    show some (RuleFields.icmp icmpType.toUInt64.toUInt8 none) = _
    simp [RuleFields.shown]
  | some code =>
    show some (RuleFields.icmp icmpType.toUInt64.toUInt8 (some code.toUInt64.toUInt8)) = _
    simp [RuleFields.shown]

theorem takenBack_characteristics (v : UInt64) : (RuleFields.characteristics v).TakenBack .characteristics := by
  show (parseHexU64 (Text.ofBytes (hexBytes _)).bytes).map RuleFields.characteristics = _
  rw [bytes_hexText, parseHexU64_be64]
  rfl

theorem takenBack_integerRange (start stop : UInt64) (idx : UInt16) (little : Bool) (bits : UInt8) :
    (RuleFields.integerRange start stop idx little bits).TakenBack .integerRange := by
  show (do
    let start ← parseHexU64 (Text.ofBytes (hexBytes (be64 start))).bytes
    let stop ← parseHexU64 (Text.ofBytes (hexBytes (be64 stop))).bytes
    return RuleFields.integerRange start stop idx.toUInt64.toUInt16 little bits.toUInt64.toUInt8) = _
  rw [bytes_hexText, bytes_hexText, parseHexU64_be64, parseHexU64_be64]
  simp [RuleFields.shown]

/-- Numbers are widened for JSON, and narrowed when they are read. -/
theorem takenBack_numbers (layout : RuleLayout) {f : RuleFields} (read : RuleFields)
    (hread : ruleFieldsFromJson (ruleFieldsToJson f) layout.first = some read) (hsame : read = f.shown) :
    f.TakenBack layout :=
  hread.trans (congrArg some hsame)

theorem takenBack (f : RuleFields) : f.TakenBack f.layout := by
  cases f with
  | forward address flags length => exact takenBack_forward address flags length
  | ztAddress address => exact takenBack_ztAddress address
  | vlanId v => exact takenBack_numbers .vlanId (.vlanId v.toUInt64.toUInt16) rfl (by simp [RuleFields.shown])
  | vlanPcp v => exact takenBack_numbers .vlanPcp (.vlanPcp v.toUInt64.toUInt8) rfl (by simp [RuleFields.shown])
  | vlanDei v => exact takenBack_numbers .vlanDei (.vlanDei v.toUInt64.toUInt8) rfl (by simp [RuleFields.shown])
  | mac mac => exact takenBack_mac mac
  | ipv4 ip mask => exact takenBack_ipv4 ip mask
  | ipv6 ip mask => exact takenBack_ipv6 ip mask
  | ipTos mask start stop =>
    exact takenBack_numbers .ipTos (.ipTos mask.toUInt64.toUInt8 start.toUInt64.toUInt8 stop.toUInt64.toUInt8) rfl
      (by simp [RuleFields.shown])
  | ipProtocol v => exact takenBack_numbers .ipProtocol (.ipProtocol v.toUInt64.toUInt8) rfl (by simp [RuleFields.shown])
  | etherType v => exact takenBack_numbers .etherType (.etherType v.toUInt64.toUInt16) rfl (by simp [RuleFields.shown])
  | icmp icmpType icmpCode => exact takenBack_icmp icmpType icmpCode
  | portRange start stop =>
    exact takenBack_numbers .portRange (.portRange start.toUInt64.toUInt16 stop.toUInt64.toUInt16) rfl
      (by simp [RuleFields.shown])
  | characteristics v => exact takenBack_characteristics v
  | frameSizeRange start stop =>
    exact takenBack_numbers .frameSizeRange (.frameSizeRange start.toUInt64.toUInt16 stop.toUInt64.toUInt16) rfl
      (by simp [RuleFields.shown])
  | randomProbability v =>
    exact takenBack_numbers .randomProbability (.randomProbability v.toUInt64.toUInt32) rfl
      (by simp [RuleFields.shown])
  | tag id value =>
    exact takenBack_numbers .tag (.tag id.toUInt64.toUInt32 value.toUInt64.toUInt32) rfl
      (by simp [RuleFields.shown])
  | integerRange start stop idx little bits => exact takenBack_integerRange start stop idx little bits

/-- The fields that are shown are taken back. -/
theorem ruleFieldsFromJson_toJson {ruleType : UInt8} {f : RuleFields} (h : layoutOf ruleType = some f.layout) :
    ruleFieldsFromJson (ruleFieldsToJson f) ruleType = some f.shown :=
  (ruleFieldsFromJson_first _ h).trans (takenBack f)

/-- Eight bytes spell no more than 40 bits if the first three are zero. -/
theorem u64At_lt_iff {value : Bytes} (h : 8 ≤ value.length) :
    (u64At value 0).toNat < 2 ^ 40 ↔ value.take 3 = [0, 0, 0] := by
  have hfront : (value.take 3).length = 3 := by rw [List.length_take]; omega
  have hback : ((value.drop 3).take 5).length = 5 := by rw [List.length_take, List.length_drop]; omega
  have hsplit : slice value 0 8 = value.take 3 ++ (value.drop 3).take 5 := by
    rw [slice, List.drop_zero, ← List.take_add]
  have hlt := ofBe_lt (slice value 0 8)
  rw [hsplit, List.length_append, hfront, hback] at hlt
  have hnumber : (u64At value 0).toNat = ofBe (value.take 3) * 256 ^ 5 + ofBe ((value.drop 3).take 5) := by
    rw [u64At, ofBe64, hsplit, UInt64.toNat_ofNat_of_lt' hlt, ofBe_append, hback]
  have hlow := ofBe_lt ((value.drop 3).take 5)
  rw [hback] at hlow
  have hzero : ofBe (value.take 3) = 0 ↔ value.take 3 = [0, 0, 0] := by
    constructor
    · exact fun h => ofBe_injective (b := [0, 0, 0]) hfront h
    · intro h
      rw [h]
      rfl
  rw [hnumber, ← hzero]
  omega

theorem layoutOf_eq_forward (ruleType : UInt8) :
    layoutOf ruleType = some .forward ↔ ruleType &&& 0x3f ∈ [actionTee, actionWatch, actionRedirect] := by
  constructor
  · exact mem_types_of_layoutOf
  · intro h
    unfold layoutOf
    exact if_pos h

/-- Fields that were read from a value are shown as they are, exactly if the rule is no
forwarding action or its address has no more than 40 bits. -/
theorem shown_iff {ruleType : UInt8} {value : Bytes} {f : RuleFields} (h : decodeRuleFields ruleType value = some f) :
    f.shown = f ↔ (ruleType &&& 0x3f ∈ [actionTee, actionWatch, actionRedirect] → value.take 3 = [0, 0, 0]) := by
  obtain ⟨layout, hlayout, hvalue⟩ := Option.bind_eq_some_iff.mp h
  obtain ⟨rfl, hrange⟩ := readLayout_inRange hvalue
  rw [← layoutOf_eq_forward, hlayout, Option.some_inj]
  cases f with
  | forward address flags length =>
    obtain ⟨hlong, heq⟩ := Option.ite_none_right_eq_some.mp hvalue
    obtain ⟨rfl, -, -⟩ := RuleFields.forward.inj (Option.some.inj heq)
    have hlow := toNat_ztAddressToU64 (u64At value 0)
    rw [← u64At_lt_iff (by omega : 8 ≤ value.length)]
    constructor
    · intro hsame _
      have haddress := congrArg UInt64.toNat (RuleFields.forward.inj hsame).1
      omega
    · intro hsmall
      rw [RuleFields.shown, ztAddressToU64_u64ToZtAddress (hsmall rfl)]
  | ztAddress address =>
    refine iff_of_true ?_ (fun hne => nomatch hne)
    rw [RuleFields.shown, ztAddressToU64_u64ToZtAddress hrange]
  | _ => exact iff_of_true rfl fun hne => nomatch hne

theorem layout_of_read {ruleType : UInt8} {value : Bytes} {f : RuleFields} (h : decodeRuleFields ruleType value = some f) :
    layoutOf ruleType = some f.layout := by
  obtain ⟨layout, hlayout, hvalue⟩ := Option.bind_eq_some_iff.mp h
  obtain ⟨rfl, -⟩ := readLayout_inRange hvalue
  exact hlayout

/-- Fields that were read from a value are taken back from JSON as they are, exactly if the
rule is no forwarding action or its address has no more than 40 bits. -/
theorem ruleFields_json_iff {ruleType : UInt8} {value : Bytes} {f : RuleFields}
    (h : decodeRuleFields ruleType value = some f) :
    ruleFieldsFromJson (ruleFieldsToJson f) ruleType = some f ↔
      (ruleType &&& 0x3f ∈ [actionTee, actionWatch, actionRedirect] → value.take 3 = [0, 0, 0]) := by
  rw [ruleFieldsFromJson_toJson (layout_of_read h), Option.some_inj]
  exact shown_iff h

/-- What is shown of a rule and posted back without its value is stored with the meaning
it had. -/
theorem decodeRuleFields_postedBack {rule : Rule} {f : RuleFields} (h : decodeRuleFields rule.ruleType rule.value = some f)
    (hforward : rule.ruleType &&& 0x3f ∈ [actionTee, actionWatch, actionRedirect] → rule.value.take 3 = [0, 0, 0]) :
    decodeRuleFields rule.ruleType (ruleFromResponse { ruleToResponse rule with value := [] }).value = some f := by
  have hread : ruleFieldsFromJson (ruleFieldsToJson f) rule.ruleType = some f := by
    rw [ruleFieldsFromJson_toJson (layout_of_read h), (shown_iff h).mpr hforward]
  have hstored : (ruleFromResponse { ruleToResponse rule with value := [] }).value = encodeRuleFields f := by
    simp [ruleFromResponse, ruleToResponse, h, hread]
  rw [hstored]
  exact decodeRuleFields_of_read h

/-- The value of a TEE to an address of more than 40 bits. -/
def sampleTee (top : UInt8) : Bytes := [top, 0, 0, 1, 2, 3, 4, 5, 0, 0, 0, 0, 0, 64]

theorem ruleFields_json_tee : ∃ f, decodeRuleFields actionTee (sampleTee 0) = some f ∧
    (ruleFieldsFromJson (ruleFieldsToJson f) actionTee = some f ↔
      (actionTee &&& 0x3f ∈ [actionTee, actionWatch, actionRedirect] → (sampleTee 0).take 3 = [0, 0, 0])) := by
  have h : decodeRuleFields actionTee (sampleTee 0) = some (.forward 0x0102030405 0 64) := by decide
  exact ⟨_, h, ruleFields_json_iff h⟩

/-- The address of a TEE loses its first byte. -/
theorem ruleFields_json_loses : ¬ ∀ (ruleType : UInt8) (value : Bytes) (f : RuleFields),
    decodeRuleFields ruleType value = some f → ruleFieldsFromJson (ruleFieldsToJson f) ruleType = some f := by
  intro hall
  have h := hall actionTee (sampleTee 1) (.forward 0x0100000102030405 0 64) (by decide)
  revert h
  decide

end ManyTier.Controller
