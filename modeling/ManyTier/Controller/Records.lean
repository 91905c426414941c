import ManyTier.Crypto.Primitives
import ManyTier.Lib.Text
import ManyTier.Protocol.NetworkConfig

/-! What a controller keeps about its networks and members, and the wire form of the
rules, tags and capabilities it grants. -/
namespace ManyTier.Controller

structure Rule where
  ruleType : UInt8
  notFlag : Bool
  orFlag : Bool
  value : Bytes
  deriving DecidableEq

structure Tag where
  id : UInt32
  value : UInt32
  deriving DecidableEq

structure Capability where
  id : UInt32
  rules : List Rule
  deriving DecidableEq

structure TagDefinition where
  id : UInt32
  name : Text
  default : Option UInt32
  enums : List (Text × UInt32)
  deriving DecidableEq

structure NetworkRecord where
  id : UInt64
  name : Text
  isPrivate : Bool
  creationTime : UInt64
  revision : UInt64
  multicastLimit : UInt32
  mtu : UInt16
  v4AssignMode : Text
  v6AssignMode : Text
  rules : List Rule
  capabilities : List Capability
  tags : List TagDefinition
  enableBroadcast : Bool
  deriving DecidableEq

structure MemberRecord where
  networkId : UInt64
  nodeId : ByteVec 5
  authorized : Bool
  ipAssignments : List Text
  creationTime : UInt64
  lastSeen : UInt64
  name : Text
  revision : UInt64
  lastAuthorizedTime : UInt64
  lastDeauthorizedTime : UInt64
  activeBridge : Bool
  noAutoAssignIps : Bool
  capabilities : List UInt32
  tags : List Tag
  deriving DecidableEq

structure IpPool where
  rangeStart : ByteVec 4
  rangeEnd : ByteVec 4
  deriving DecidableEq

structure ManagedRoute where
  target : Text
  via : Option Text
  deriving DecidableEq

/-! ### Rules, tags and capabilities on the wire -/

/-- The type in the low six bits, the flags above it, then the value behind the low
eight bits of its length. -/
def serializeRule (rule : Rule) : Bytes :=
  let typeByte := (rule.ruleType &&& 0x3f) ||| (if rule.orFlag then 0x40 else 0) |||
    (if rule.notFlag then 0x80 else 0)
  typeByte :: UInt8.ofNat rule.value.length :: rule.value

def serializeRules (rules : List Rule) : Bytes := rules.flatMap serializeRule

def signMarker : UInt64 := 0x7f7f7f7f7f7f7f7f
def signatureTypeEd25519 : UInt8 := 1
def signatureLen : UInt16 := 96

section
variable (pr : Primitives) (networkId : UInt64) (issuedTo signedBy : ByteVec 5) (timestamp : UInt64)
  (signingKey : ByteVec 32)

/-- A tag with its signature. -/
def serializeTagSigned (tag : Tag) : Bytes :=
  let content := be64 networkId ++ (be64 timestamp ++ (be32 tag.id ++ (be32 tag.value ++
    (issuedTo.toBytes ++ signedBy.toBytes))))
  let signature := Signing.sign pr signingKey (be64 signMarker ++ (content ++ (be16 0 ++ be64 signMarker)))
  content ++ (signatureTypeEd25519 :: (be16 signatureLen ++ (signature.toBytes ++ be16 0)))

def serializeTagsSigned (tags : List Tag) : Bytes :=
  tags.flatMap (serializeTagSigned pr networkId issuedTo signedBy timestamp signingKey)

/-- A capability with a custody chain of one. -/
def serializeCapabilitySigned (cap : Capability) : Bytes :=
  let content := be64 networkId ++ (be64 timestamp ++ (be32 cap.id ++
    (be16 (UInt16.ofNat cap.rules.length) ++ (serializeRules cap.rules ++ [1]))))
  let signature := Signing.sign pr signingKey (be64 signMarker ++ (content ++ (be16 0 ++ be64 signMarker)))
  content ++ (issuedTo.toBytes ++ (signedBy.toBytes ++ (signatureTypeEd25519 :: (be16 signatureLen ++
    (signature.toBytes ++ ((ByteVec.zero 5).toBytes ++ be16 0))))))

def serializeCapabilitiesSigned (caps : List Capability) : Bytes :=
  caps.flatMap (serializeCapabilitySigned pr networkId issuedTo signedBy timestamp signingKey)

end

end ManyTier.Controller
