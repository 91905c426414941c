import ManyTier.Controller.Addresses
import ManyTier.Controller.Dictionary
import ManyTier.Controller.Records

/-! The configuration dictionary of one member.

Text entries for the network's settings, and binary ones for the member's certificate,
the rules, its addresses, the routes, and the capabilities and tags it is granted. An
assignment or a route that cannot be read is left out. -/
namespace ManyTier.Controller

/-! ### Keys -/

namespace Key

def nwid : Text := .literal ['n', 'w', 'i', 'd']
def name : Text := .literal ['n']
def networkType : Text := .literal ['t']
def version : Text := .literal ['v']
def timestamp : Text := .literal ['t', 's']
def revision : Text := .literal ['r']
def issuedTo : Text := .literal ['i', 'd']
def flags : Text := .literal ['f']
def mtu : Text := .literal ['m', 't', 'u']
def multicastLimit : Text := .literal ['m', 'l']
def credentialTimeMaxDelta : Text := .literal ['c', 't', 'm', 'd']
def com : Text := .literal ['C']
def rules : Text := .literal ['R']
def staticIps : Text := .literal ['I']
def routes : Text := .literal ['R', 'T']
def capabilities : Text := .literal ['C', 'A', 'P']
def tags : Text := .literal ['T', 'A', 'G']
def peerDirectory : Text := .literal ['P', 'M']

end Key

/-! ### Numbers and addresses as text -/

/-- Exactly `width` hexadecimal digits. -/
def formatHexPadded (width n : Nat) : Bytes :=
  (List.range width).map fun i => formatDigit (n / 16 ^ (width - 1 - i) % 16)

/-- Ten hexadecimal digits. -/
def formatAddress (address : ByteVec 5) : Bytes := address.toBytes.flatMap fun b => formatHexPadded 2 b.toNat

/-! ### Addresses and routes as bytes -/

def serializeRulesAllowAll : Bytes := [0x01, 0x00]

/-- The wire form of an address, or nothing at all if it cannot be read. -/
def serializeInetAddress (ip : Bytes) (bits : UInt8) : Except Fault Bytes := do
  let inet ← parseInet ip bits
  return match inet with
    | some inet => inet.serialize
    | none => []

/-- The address an assignment names. -/
def assignmentInet (assignment : Text) : Except Fault (Option InetAddress) :=
  match parseIpPrefix assignment.bytes with
  | some (ip, bits) => parseInet ip bits
  | none => .ok none

def serializeIpAssignments (ips : List Text) : Except Fault Bytes := do
  let inets ← collect assignmentInet ips
  return inets.flatMap InetAddress.serialize

/-- A route as it is sent: where to and by which gateway. -/
structure RouteEntry where
  target : InetAddress
  via : InetAddress
  deriving DecidableEq

/-- Flags and metric are zero. -/
def RouteEntry.serialize (e : RouteEntry) : Bytes :=
  e.target.serialize ++ (e.via.serialize ++ (be16 0 ++ be16 0))

/-- A gateway that cannot be read is no gateway. -/
def viaInet : Option Text → Except Fault InetAddress
  | none => .ok .null
  | some via => do
    let inet ← parseInet via.bytes 0
    return inet.getD .null

def managedEntry (route : ManagedRoute) : Except Fault (Option RouteEntry) := do
  let target ← assignmentInet route.target
  match target with
  | none => return none
  | some target =>
    let via ← viaInet route.via
    return some ⟨target, via⟩

/-- The route to the network an assigned address is in. -/
def derivedEntry (assignment : Text) : Except Fault (Option RouteEntry) := do
  let inet ← assignmentInet assignment
  match inet with
  | none => return none
  | some inet =>
    let network ← maskInet inet
    return some ⟨network, .null⟩

/-- The managed routes and then those of the assignments. -/
def routeEntries (managed : List ManagedRoute) (assignments : List Text) : Except Fault (List RouteEntry) := do
  let explicit ← collect managedEntry managed
  let derived ← collect derivedEntry assignments
  return explicit ++ derived

def serializeRoutes (managed : List ManagedRoute) (assignments : List Text) : Except Fault Bytes := do
  let entries ← routeEntries managed assignments
  return entries.flatMap RouteEntry.serialize

/-! ### The dictionary -/

def settingEntries (network : NetworkRecord) (member : MemberRecord) (now : UInt64) : Dictionary :=
  [⟨Key.nwid, formatHexPadded 16 network.id.toNat⟩,
    ⟨Key.name, network.name.bytes⟩,
    ⟨Key.networkType, formatHex (if network.isPrivate then 0 else 1)⟩,
    ⟨Key.version, formatHex 7⟩,
    ⟨Key.timestamp, formatHex now⟩,
    ⟨Key.revision, formatHex network.revision⟩,
    ⟨Key.issuedTo, formatAddress member.nodeId⟩,
    ⟨Key.flags, formatHex 0⟩,
    ⟨Key.mtu, formatHex network.mtu.toUInt64⟩,
    ⟨Key.multicastLimit, formatHex network.multicastLimit.toUInt64⟩,
    ⟨Key.credentialTimeMaxDelta, formatHex 1800000⟩]

/-- An entry unless its value is empty. -/
def entryUnlessEmpty (key : Text) (data : Bytes) : Dictionary := if data.isEmpty then [] else [⟨key, data⟩]

def networkConfigEntries (network : NetworkRecord) (member : MemberRecord) (routes : List ManagedRoute)
    (com : CertificateOfMembership) (now : UInt64) (capabilitiesRaw tagsRaw : Bytes) :
    Except Fault Dictionary := do
  let ips ← if member.ipAssignments.isEmpty then pure [] else do
    let data ← serializeIpAssignments member.ipAssignments
    pure [⟨Key.staticIps, data⟩]
  let routeData ← serializeRoutes routes member.ipAssignments
  return settingEntries network member now ++
    [⟨Key.com, com.serialize⟩,
      ⟨Key.rules, if network.rules.isEmpty then serializeRulesAllowAll else serializeRules network.rules⟩] ++
    ips ++ [⟨Key.routes, routeData⟩] ++
    entryUnlessEmpty Key.capabilities capabilitiesRaw ++ entryUnlessEmpty Key.tags tagsRaw

def buildNetworkConfig (network : NetworkRecord) (member : MemberRecord) (routes : List ManagedRoute)
    (com : CertificateOfMembership) (now : UInt64) (capabilitiesRaw tagsRaw : Bytes) :
    Except Fault Bytes := do
  let entries ← networkConfigEntries network member routes com now capabilitiesRaw tagsRaw
  return entries.serialize

end ManyTier.Controller
