import ManyTier.Controller.Dictionary
import ManyTier.Node.ConfigAssembly

/-! What a node takes from a configuration dictionary: the MTU, its certificate, its
addresses, the routes and the directory of members with their certificates. -/
namespace ManyTier

/-! ### Keys -/

namespace ConfigKey

def mtu : Text := .literal ['m', 't', 'u']
def com : Text := .literal ['C']
def staticIps : Text := .literal ['I']
def routes : Text := .literal ['R', 'T']
def peerDirectory : Text := .literal ['P', 'M']
def v4s : Text := .literal ['v', '4', 's']
def v6s : Text := .literal ['v', '6', 's']

end ConfigKey

def networkMtuFromDictData (dictData : Bytes) : Option UInt16 :=
  match Dictionary.deserialize dictData with
  | .error _ => none
  | .ok dict => (dict.getHexU64 ConfigKey.mtu).bind fun v =>
      if v.toNat < 2 ^ 16 then some v.toUInt16 else none

/-! ### Addresses -/

/-- The addresses of a list up to the first that cannot be read. Each takes at least
one byte, so as many turns as there are bytes are enough. -/
def staticIpsOf : Nat → Bytes → List InetAddress
  | 0, _ => []
  | fuel + 1, data =>
    if data.isEmpty then []
    else
      match InetAddress.deserialize data with
      | .error _ => []
      | .ok (inet, consumed) => inet :: staticIpsOf fuel (data.drop consumed)

/-- The last address of each family is the assigned one. -/
def assignStaticIp (net : NetworkMembership) : InetAddress → NetworkMembership
  | .v4 ip _ => { net with assignedIpv4 := some ip }
  | .v6 ip _ => { net with assignedIpv6 := some ip }
  | .null => net

def parseCidrText {α : Type} (parse : Bytes → Option α) (value : Bytes) : Option (α × UInt8) := do
  let (ip, bits) ← splitOnce 0x2f value
  return (← parse ip, ← parseU8 bits)

def parseIpv4CidrText : Bytes → Option (Ipv4Addr × UInt8) := parseCidrText parseIpv4Addr
def parseIpv6CidrText : Bytes → Option (Ipv6Addr × UInt8) := parseCidrText parseIpv6Addr

/-- The parts of a comma-separated text. -/
def legacyAssignments (text : Option Bytes) : List Bytes :=
  match text with
  | none => []
  | some s => ((splitOn 0x2c s).map trim).filter fun part => ! part.isEmpty

def applyLegacyIpAssignments (net : NetworkMembership) (dict : Dictionary) : NetworkMembership :=
  let v4 (net : NetworkMembership) (part : Bytes) : NetworkMembership :=
    match parseIpv4CidrText part with
    | some (ip, _) => { net with assignedIpv4 := some ip }
    | none => net
  let v6 (net : NetworkMembership) (part : Bytes) : NetworkMembership :=
    match parseIpv6CidrText part with
    | some (ip, _) => { net with assignedIpv6 := some ip }
    | none => net
  let net := (legacyAssignments (dict.getText ConfigKey.v4s)).foldl v4 net
  (legacyAssignments (dict.getText ConfigKey.v6s)).foldl v6 net

/-- The text form is read only when the list names no address. -/
def applyAssignments (net : NetworkMembership) (dict : Dictionary) : NetworkMembership :=
  let ips := match dict.getBinary ConfigKey.staticIps with
    | some data => staticIpsOf data.length data
    | none => []
  let net := ips.foldl assignStaticIp net
  if ips.all (· = .null) then applyLegacyIpAssignments net dict else net

/-! ### Routes -/

/-- Numbers between commas, as the debug format of an array has them. -/
def formatArray : Bytes → Bytes
  | [] => []
  | [b] => formatDecimal b.toNat
  | b :: rest => formatDecimal b.toNat ++ ascii [',', ' '] ++ formatArray rest

/-- A route's target. Only an IPv4 address is written as one; the others are in the
debug format. -/
def routeTarget (target : InetAddress) (bits : UInt16) : Bytes :=
  let head := match target with
    | .v4 ip _ =>
      formatDecimal (byteAt ip.toBytes 0).toNat ++ ascii ['.'] ++
        formatDecimal (byteAt ip.toBytes 1).toNat ++ ascii ['.'] ++
        formatDecimal (byteAt ip.toBytes 2).toNat ++ ascii ['.'] ++
        formatDecimal (byteAt ip.toBytes 3).toNat
    | .v6 ip port =>
      ascii ['V', '6', ' ', '\x7b', ' ', 'i', 'p', ':', ' ', '['] ++ formatArray ip.toBytes ++
        ascii [']', ',', ' ', 'p', 'o', 'r', 't', ':', ' '] ++ formatDecimal port.toNat ++
        ascii [' ', '\x7d']
    | .null => ascii ['N', 'u', 'l', 'l']
  head ++ ascii ['/'] ++ formatDecimal bits.toNat

/-- How many bytes the gateway of a route takes behind its type; none when they are
not all there. -/
def skipVia (viaType : UInt8) (data : Bytes) : Option Bytes :=
  let len := if viaType = 4 then 6 else if viaType = 6 then 18 else 0
  if data.length < len then none else some (data.drop len)

/-- Routes up to the first that cannot be read. The flags of the last one may be
missing. -/
def routesOf : Nat → Bytes → List Bytes
  | 0, _ => []
  | fuel + 1, data =>
    if data.isEmpty then []
    else
      match InetAddress.deserialize data with
      | .error _ => []
      | .ok (target, consumed) =>
        let data := data.drop consumed
        if data.length < 3 then []
        else
          match skipVia (byteAt data 2) (data.drop 3) with
          | none => []
          | some rest =>
            let rest := if 2 ≤ rest.length then rest.drop 2 else rest
            routeTarget target (u16At data 0) :: routesOf fuel rest

/-! ### The directory -/

/-- An IPv4 address or none; the port field carries the prefix length. -/
def inetV4FromBytes (data : Bytes) : Option (Option (Ipv4Addr × UInt8) × Nat) :=
  match InetAddress.deserialize data with
  | .ok (.null, consumed) => some (none, consumed)
  | .ok (.v4 ip port, consumed) => some (some (ip, port.toUInt8), consumed)
  | _ => none

def inetV6FromBytes (data : Bytes) : Option (Option (Ipv6Addr × UInt8) × Nat) :=
  match InetAddress.deserialize data with
  | .ok (.null, consumed) => some (none, consumed)
  | .ok (.v6 ip port, consumed) => some (some (ip, port.toUInt8), consumed)
  | _ => none

/-- The member directory and the certificates filed for the members. -/
structure PeerDirectory where
  members : List NetworkMember
  peerComs : List (ByteVec 5 × CertificateOfMembership)
  deriving DecidableEq

/-- `count` entries: an address, an IPv4 and an IPv6 address, and a certificate. -/
def peerDirectoryEntries (networkId : UInt64) (ourAddress : ByteVec 5) : Nat → Bytes → Option PeerDirectory
  | 0, _ => some ⟨[], []⟩
  | count + 1, data =>
    if data.length < 5 then none
    else do
      let nodeId : ByteVec 5 := fieldAt 5 data 0
      let data := data.drop 5
      let (ipv4, consumed) ← inetV4FromBytes data
      let data := data.drop consumed
      let (ipv6, consumed) ← inetV6FromBytes data
      let data := data.drop consumed
      let (com, consumed) ← (CertificateOfMembership.deserialize data).toOption
      let rest ← peerDirectoryEntries networkId ourAddress count (data.drop consumed)
      let member : NetworkMember :=
        { ztAddress := nodeId, mac := Ethernet.deriveMac nodeId networkId, ipv4, ipv6, authorized := true }
      return { members := member :: rest.members
               peerComs := if nodeId ≠ ourAddress then (nodeId, com) :: rest.peerComs else rest.peerComs }

def peerDirectoryFromDictData (dictData : Bytes) (networkId : UInt64) (ourAddress : ByteVec 5) :
    Option PeerDirectory := do
  let dict ← (Dictionary.deserialize dictData).toOption
  let data ← dict.getBinary ConfigKey.peerDirectory
  if data.length < 2 then none
  else peerDirectoryEntries networkId ourAddress (u16At data 0).toNat (data.drop 2)

/-! ### The membership -/

/-- Our certificate, if the dictionary has one that can be read. -/
def applyOurCom (net : NetworkMembership) (dict : Dictionary) : NetworkMembership :=
  match dict.getBinary ConfigKey.com with
  | none => net
  | some data =>
    match CertificateOfMembership.deserialize data with
    | .ok (com, _) => { net with ourCom := some com }
    | .error _ => net

/-- The routes, unless the dictionary lists none. -/
def applyRoutes (net : NetworkMembership) (dict : Dictionary) : NetworkMembership :=
  match dict.getBinary ConfigKey.routes with
  | none => net
  | some data =>
    let routes := routesOf data.length data
    if routes.isEmpty then net else { net with routes }

/-- The network, its members and the certificates are the same. -/
structure SameTrust (net net' : NetworkMembership) : Prop where
  networkId : net'.networkId = net.networkId
  members : net'.members = net.members
  ourCom : net'.ourCom = net.ourCom
  peerComs : net'.peerComs = net.peerComs

namespace SameTrust

theorem refl (net : NetworkMembership) : SameTrust net net := ⟨rfl, rfl, rfl, rfl⟩

theorem trans {a b c : NetworkMembership} (h : SameTrust a b) (h' : SameTrust b c) : SameTrust a c :=
  ⟨h'.networkId.trans h.networkId, h'.members.trans h.members, h'.ourCom.trans h.ourCom,
    h'.peerComs.trans h.peerComs⟩

theorem foldl {α : Type} {f : NetworkMembership → α → NetworkMembership} (hf : ∀ net x, SameTrust net (f net x))
    (l : List α) (net : NetworkMembership) : SameTrust net (l.foldl f net) := by
  induction l generalizing net with
  | nil => exact .refl net
  | cons x rest ih => exact (hf net x).trans (ih _)

end SameTrust

theorem sameTrust_applyLegacyIpAssignments (net : NetworkMembership) (dict : Dictionary) :
    SameTrust net (applyLegacyIpAssignments net dict) := by
  unfold applyLegacyIpAssignments
  simp only
  refine (SameTrust.foldl ?_ _ net).trans (.foldl ?_ _ _)
  · intro net part
    split
    · exact ⟨rfl, rfl, rfl, rfl⟩
    · exact .refl net
  · intro net part
    split
    · exact ⟨rfl, rfl, rfl, rfl⟩
    · exact .refl net

/-- Addresses have nothing to do with trust. -/
theorem sameTrust_applyAssignments (net : NetworkMembership) (dict : Dictionary) :
    SameTrust net (applyAssignments net dict) := by
  unfold applyAssignments
  simp only
  generalize (match dict.getBinary ConfigKey.staticIps with
    | some data => staticIpsOf data.length data
    | none => []) = ips
  have hips : SameTrust net (ips.foldl assignStaticIp net) := by
    refine .foldl (fun net ip => ?_) ips net
    cases ip <;> exact ⟨rfl, rfl, rfl, rfl⟩
  split
  · exact hips.trans (sameTrust_applyLegacyIpAssignments ..)
  · exact hips

theorem sameTrust_applyRoutes (net : NetworkMembership) (dict : Dictionary) :
    SameTrust net (applyRoutes net dict) := by
  unfold applyRoutes
  split
  · exact .refl net
  · simp only
    split
    · exact .refl net
    · exact ⟨rfl, rfl, rfl, rfl⟩

/-- Our certificate is neither a member nor one of theirs. -/
theorem applyOurCom_keeps (net : NetworkMembership) (dict : Dictionary) :
    (applyOurCom net dict).networkId = net.networkId ∧ (applyOurCom net dict).members = net.members ∧
      (applyOurCom net dict).peerComs = net.peerComs := by
  unfold applyOurCom
  split
  · exact ⟨rfl, rfl, rfl⟩
  · split
    · exact ⟨rfl, rfl, rfl⟩
    · exact ⟨rfl, rfl, rfl⟩

/-- A membership after a configuration dictionary. -/
def NetworkMembership.applyDictionary (net : NetworkMembership) (ourAddress : ByteVec 5)
    (dictData : Bytes) : NetworkMembership :=
  let net := { net with mtu := (networkMtuFromDictData dictData).getD net.mtu }
  let net := match Dictionary.deserialize dictData with
    | .error _ => net
    | .ok dict => applyRoutes (applyAssignments (applyOurCom net dict) dict) dict
  match peerDirectoryFromDictData dictData net.networkId ourAddress with
  | some directory => { net with members := directory.members, peerComs := directory.peerComs }
  | none => net

/-- The part of a dictionary that is not the directory. -/
def NetworkMembership.applySettings (net : NetworkMembership) (dictData : Bytes) : NetworkMembership :=
  let net := { net with mtu := (networkMtuFromDictData dictData).getD net.mtu }
  match Dictionary.deserialize dictData with
  | .error _ => net
  | .ok dict => applyRoutes (applyAssignments (applyOurCom net dict) dict) dict

namespace NetworkMembership
variable (net : NetworkMembership) (ourAddress : ByteVec 5) (dictData : Bytes)

/-- The settings are about neither the network, nor its members, nor their certificates. -/
theorem applySettings_keeps :
    (net.applySettings dictData).networkId = net.networkId ∧ (net.applySettings dictData).members = net.members ∧
      (net.applySettings dictData).peerComs = net.peerComs := by
  unfold applySettings
  simp only
  split
  · exact ⟨rfl, rfl, rfl⟩
  · rename_i dict _
    set net₁ := { net with mtu := (networkMtuFromDictData dictData).getD net.mtu } with hnet₁
    obtain ⟨hid, hmembers, hcoms⟩ := applyOurCom_keeps net₁ dict
    have hsame := (sameTrust_applyAssignments (applyOurCom net₁ dict) dict).trans (sameTrust_applyRoutes _ dict)
    exact ⟨hsame.networkId.trans hid, hsame.members.trans hmembers, hsame.peerComs.trans hcoms⟩

theorem applyDictionary_eq :
    net.applyDictionary ourAddress dictData =
      match peerDirectoryFromDictData dictData net.networkId ourAddress with
      | some directory =>
        { net.applySettings dictData with members := directory.members, peerComs := directory.peerComs }
      | none => net.applySettings dictData := by
  have hid := (net.applySettings_keeps dictData).1
  show (match peerDirectoryFromDictData dictData (net.applySettings dictData).networkId ourAddress with
    | some directory =>
      { net.applySettings dictData with members := directory.members, peerComs := directory.peerComs }
    | none => net.applySettings dictData) = _
  rw [hid]

theorem networkId_applyDictionary : (net.applyDictionary ourAddress dictData).networkId = net.networkId := by
  rw [applyDictionary_eq]
  split
  · exact (net.applySettings_keeps dictData).1
  · exact (net.applySettings_keeps dictData).1

end NetworkMembership

namespace Node

def applyNetworkConfig (n : Node) (networkId : UInt64) (dictData : Bytes) : Node :=
  n.modifyNetwork networkId fun net => net.applyDictionary n.address dictData

/-- A configuration for a joined network: applied when it is whole. -/
def applyReceivedNetworkConfig (n : Node) (nc : NetworkConfigPayload) : Node :=
  if (n.findNetwork nc.networkId).isNone then n
  else
    let (pending, whole) := assembleNetworkConfig n.pendingNetworkConfigs nc
    let n := { n with pendingNetworkConfigs := pending }
    match whole with
    | none => n
    | some nc =>
      let n := n.applyNetworkConfig nc.networkId nc.dictData
      let n := n.modifyNetwork nc.networkId fun net => { net with pendingConfigRequest := false }
      n.pushAction (.networkConfigured nc.networkId nc.dictData)

end Node

end ManyTier
