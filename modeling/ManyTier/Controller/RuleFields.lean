import ManyTier.Controller.Addresses
import ManyTier.Controller.Records
import ManyTier.Lib.Json

/-! Rules as the API takes them.

A rule comes with its value bytes or, where these are empty, with named fields in JSON;
the rule's type says which fields there are and how they are laid out. A number is cut to
the width of its field. -/
namespace ManyTier.Controller

/-! ### Rule types -/

def actionTee : UInt8 := 0x02
def actionWatch : UInt8 := 0x03
def actionRedirect : UInt8 := 0x04
def matchSourceZerotierAddress : UInt8 := 0x18
def matchDestZerotierAddress : UInt8 := 0x19
def matchVlanId : UInt8 := 0x1a
def matchVlanPcp : UInt8 := 0x1b
def matchVlanDei : UInt8 := 0x1c
def matchMacSource : UInt8 := 0x1d
def matchMacDest : UInt8 := 0x1e
def matchIpv4Source : UInt8 := 0x1f
def matchIpv4Dest : UInt8 := 0x20
def matchIpv6Source : UInt8 := 0x21
def matchIpv6Dest : UInt8 := 0x22
def matchIpTos : UInt8 := 0x23
def matchIpProtocol : UInt8 := 0x24
def matchEtherType : UInt8 := 0x25
def matchIcmp : UInt8 := 0x26
def matchIpSourcePortRange : UInt8 := 0x27
def matchIpDestPortRange : UInt8 := 0x28
def matchCharacteristics : UInt8 := 0x29
def matchFrameSizeRange : UInt8 := 0x2a
def matchRandom : UInt8 := 0x2b
def matchTagsDifference : UInt8 := 0x2c
def matchTagsBitwiseAnd : UInt8 := 0x2d
def matchTagsBitwiseOr : UInt8 := 0x2e
def matchTagsBitwiseXor : UInt8 := 0x2f
def matchTagsEqual : UInt8 := 0x30
def matchTagSender : UInt8 := 0x31
def matchTagReceiver : UInt8 := 0x32
def matchIntegerRange : UInt8 := 0x33

/-! ### Fields -/

inductive RuleFields where
  | forward (address : UInt64) (flags : UInt32) (length : UInt16)
  | ztAddress (address : UInt64)
  | vlanId (v : UInt16)
  | vlanPcp (v : UInt8)
  | vlanDei (v : UInt8)
  | mac (mac : ByteVec 6)
  | ipv4 (ip : ByteVec 4) (mask : UInt8)
  | ipv6 (ip : ByteVec 16) (mask : UInt8)
  | ipTos (mask start stop : UInt8)
  | ipProtocol (v : UInt8)
  | etherType (v : UInt16)
  | icmp (icmpType : UInt8) (icmpCode : Option UInt8)
  | portRange (start stop : UInt16)
  | characteristics (v : UInt64)
  | frameSizeRange (start stop : UInt16)
  | randomProbability (v : UInt32)
  | tag (id value : UInt32)
  | integerRange (start stop : UInt64) (idx : UInt16) (little : Bool) (bits : UInt8)
  deriving DecidableEq

/-- The value bytes of the fields; the bit count of an integer range is stored less one. -/
def encodeRuleFields : RuleFields → Bytes
  | .forward address flags length => be64 address ++ (be32 flags ++ be16 length)
  | .ztAddress address => slice (be64 address) 3 5
  | .vlanId v => be16 v
  | .vlanPcp v => [v]
  | .vlanDei v => [v]
  | .mac mac => mac.toBytes
  | .ipv4 ip mask => ip.toBytes ++ [mask]
  | .ipv6 ip mask => ip.toBytes ++ [mask]
  | .ipTos mask start stop => [mask, start, stop]
  | .ipProtocol v => [v]
  | .etherType v => be16 v
  | .icmp icmpType icmpCode => [icmpType, icmpCode.getD 0, if icmpCode.isSome then 0x01 else 0x00]
  | .portRange start stop => be16 start ++ be16 stop
  | .characteristics v => be64 v
  | .frameSizeRange start stop => be16 start ++ be16 stop
  | .randomProbability v => be32 v
  | .tag id value => be32 id ++ be32 value
  | .integerRange start stop idx little bits =>
    be64 start ++ (be64 stop ++ (be16 idx ++ [((bits - 1) &&& 0x3f) ||| (if little then 0x80 else 0)]))

section
variable (json : Json)

/-- A number under a key, and a number spelled in hexadecimal. -/
def jsonU64 (key : List Char) : Option UInt64 := (json.get (ascii key)).bind Json.asU64

def jsonHexU64 (key : List Char) : Option UInt64 :=
  ((json.get (ascii key)).bind Json.asStr).bind fun s => parseHexU64 s.bytes

def parseHexU8 (s : Bytes) : Option UInt8 := (parseUnsigned 16 255 s).map UInt8.ofNat

/-- Six bytes between colons. -/
def jsonMac : Option (ByteVec 6) := do
  let s ← (json.get (ascii ['m', 'a', 'c'])).bind Json.asStr
  let bytes ← (splitOn 0x3a s.bytes).mapM parseHexU8
  if bytes.length ≠ 6 then none else return ByteVec.ofBytes 6 bytes

/-- An address and a prefix length behind a slash. -/
def jsonPrefix {n : Nat} (parse : Bytes → Option (ByteVec n)) : Option (ByteVec n × UInt8) := do
  let s ← (json.get (ascii ['i', 'p'])).bind Json.asStr
  let (addr, mask) ← splitOnce 0x2f s.bytes
  let ip ← parse addr
  let mask ← parseU8 mask
  return (ip, mask)

def jsonStart : Option UInt64 := jsonU64 json ['s', 't', 'a', 'r', 't']
def jsonEnd : Option UInt64 := jsonU64 json ['e', 'n', 'd']

/-- The fields of a rule type; nothing if one is missing or the type has none. -/
def ruleFieldsFromJson (ruleType : UInt8) : Option RuleFields :=
  let type := ruleType &&& 0x3f
  if type ∈ [actionTee, actionWatch, actionRedirect] then do
    let address ← jsonHexU64 json ['a', 'd', 'd', 'r', 'e', 's', 's']
    let flags := (jsonU64 json ['f', 'l', 'a', 'g', 's']).getD 0
    let length := (jsonU64 json ['l', 'e', 'n', 'g', 't', 'h']).getD 0
    return .forward address flags.toUInt32 length.toUInt16
  else if type ∈ [matchSourceZerotierAddress, matchDestZerotierAddress] then
    (jsonHexU64 json ['z', 't']).map .ztAddress
  else if type = matchVlanId then
    (jsonU64 json ['v', 'l', 'a', 'n', 'I', 'd']).map fun v => .vlanId v.toUInt16
  else if type = matchVlanPcp then
    (jsonU64 json ['v', 'l', 'a', 'n', 'P', 'c', 'p']).map fun v => .vlanPcp v.toUInt8
  else if type = matchVlanDei then
    (jsonU64 json ['v', 'l', 'a', 'n', 'D', 'e', 'i']).map fun v => .vlanDei v.toUInt8
  else if type ∈ [matchMacSource, matchMacDest] then (jsonMac json).map .mac
  else if type ∈ [matchIpv4Source, matchIpv4Dest] then
    (jsonPrefix json parseIpv4Addr).map fun p => .ipv4 p.1 p.2
  else if type ∈ [matchIpv6Source, matchIpv6Dest] then
    (jsonPrefix json parseIpv6Addr).map fun p => .ipv6 p.1 p.2
  else if type = matchIpTos then do
    let mask ← jsonU64 json ['m', 'a', 's', 'k']
    let start ← jsonStart json
    let stop ← jsonEnd json
    return .ipTos mask.toUInt8 start.toUInt8 stop.toUInt8
  else if type = matchIpProtocol then
    (jsonU64 json ['i', 'p', 'P', 'r', 'o', 't', 'o', 'c', 'o', 'l']).map fun v => .ipProtocol v.toUInt8
  else if type = matchEtherType then
    (jsonU64 json ['e', 't', 'h', 'e', 'r', 'T', 'y', 'p', 'e']).map fun v => .etherType v.toUInt16
  else if type = matchIcmp then do
    let icmpType ← jsonU64 json ['i', 'c', 'm', 'p', 'T', 'y', 'p', 'e']
    let icmpCode := jsonU64 json ['i', 'c', 'm', 'p', 'C', 'o', 'd', 'e']
    return .icmp icmpType.toUInt8 (icmpCode.map UInt64.toUInt8)
  else if type ∈ [matchIpSourcePortRange, matchIpDestPortRange] then do
    let start ← jsonStart json
    let stop ← jsonEnd json
    return .portRange start.toUInt16 stop.toUInt16
  else if type = matchCharacteristics then (jsonHexU64 json ['m', 'a', 's', 'k']).map .characteristics
  else if type = matchFrameSizeRange then do
    let start ← jsonStart json
    let stop ← jsonEnd json
    return .frameSizeRange start.toUInt16 stop.toUInt16
  else if type = matchRandom then
    (jsonU64 json ['p', 'r', 'o', 'b', 'a', 'b', 'i', 'l', 'i', 't', 'y']).map fun v => .randomProbability v.toUInt32
  else if type ∈ [matchTagsDifference, matchTagsBitwiseAnd, matchTagsBitwiseOr, matchTagsBitwiseXor, matchTagsEqual,
      matchTagSender, matchTagReceiver] then do
    let id ← jsonU64 json ['i', 'd']
    let value ← jsonU64 json ['v', 'a', 'l', 'u', 'e']
    return .tag id.toUInt32 value.toUInt32
  else if type = matchIntegerRange then do
    let start ← jsonHexU64 json ['s', 't', 'a', 'r', 't']
    let stop ← jsonHexU64 json ['e', 'n', 'd']
    let idx ← jsonU64 json ['i', 'd', 'x']
    let little := ((json.get (ascii ['l', 'i', 't', 't', 'l', 'e'])).bind Json.asBool).getD false
    let bits ← jsonU64 json ['b', 'i', 't', 's']
    return .integerRange start stop idx.toUInt16 little bits.toUInt8
  else none

end

/-! ### Rules -/

structure RuleResponse where
  ruleType : UInt8
  not : Bool
  orFlag : Bool
  value : Bytes
  fields : Option Json

/-- Value bytes win over fields. -/
def ruleFromResponse (rule : RuleResponse) : Rule where
  ruleType := rule.ruleType
  notFlag := rule.not
  orFlag := rule.orFlag
  value :=
    if rule.value.isEmpty then
      ((rule.fields.bind fun json => ruleFieldsFromJson json rule.ruleType).map encodeRuleFields).getD []
    else rule.value

structure CapabilityResponse where
  id : UInt32
  rules : List RuleResponse

def capabilityFromResponse (cap : CapabilityResponse) : Capability := ⟨cap.id, cap.rules.map ruleFromResponse⟩

/-- A tag definition; its named values come in the order of their names. -/
structure TagDefinitionResponse where
  id : UInt32
  name : Text
  default : Option UInt32
  enums : List (Text × UInt32)

def tagDefinitionFromResponse (d : TagDefinitionResponse) : TagDefinition := ⟨d.id, d.name, d.default, d.enums⟩

end ManyTier.Controller
