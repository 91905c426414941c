import ManyTier.Controller.RuleJson
import ManyTier.Lib.Lists
import ManyTier.Service.Machine

/-! The networks of the service, as its API joins, leaves and lists them.

A joined network leaves a marker in `networks.d`, a file named after it, and a start joins
every network that has one. The reader of markers takes every name whose stem reads as
a number, so capitals and a plus sign do as well; the writer writes one form. A name in
another form therefore outlives the leave (`mem_forgetNetwork`); where there is none,
leaving undoes joining (`mem_forgetNetwork_of_canonical`). -/
namespace ManyTier

namespace Service

/-! ### Markers -/

def markerSuffix : Bytes := ascii ['.', 'c', 'o', 'n', 'f']

/-- The name of the marker of a network. -/
def networkMarker (networkId : UInt64) : Bytes := hexBytes (be64 networkId) ++ markerSuffix

/-- The network a file in the directory of markers stands for. -/
def markedNetwork (name : Bytes) : Option UInt64 :=
  (name.dropSuffix? markerSuffix).bind fun stem => if stem.length ≠ 16 then none else parseHexU64 stem

/-- The markers after a join, if the file could be written. -/
def rememberNetwork (markers : List Bytes) (networkId : UInt64) (written : Bool) : List Bytes :=
  if written && ! markers.contains (networkMarker networkId) then markers ++ [networkMarker networkId] else markers

/-- The markers after a leave, if the file could be removed. -/
def forgetNetwork (markers : List Bytes) (networkId : UInt64) (removed : Bool) : List Bytes :=
  if removed then markers.filter fun name => name ≠ networkMarker networkId else markers

def rememberedNetworks (markers : List Bytes) : List UInt64 := sortedDistinct (markers.filterMap markedNetwork)

theorem markedNetwork_networkMarker (networkId : UInt64) : markedNetwork (networkMarker networkId) = some networkId := by
  have hstem : (networkMarker networkId).dropSuffix? markerSuffix = some (hexBytes (be64 networkId)) :=
    List.dropSuffix?_eq_some_iff.mpr ⟨markerSuffix, rfl, by decide⟩
  have hlen : (hexBytes (be64 networkId)).length = 16 := by simp
  rw [markedNetwork, hstem, Option.bind_some, if_neg (by simp [hlen]), parseHexU64_be64]

theorem mem_rememberedNetworks {markers : List Bytes} {networkId : UInt64} :
    networkId ∈ rememberedNetworks markers ↔ ∃ name ∈ markers, markedNetwork name = some networkId := by
  rw [rememberedNetworks, mem_sortedDistinct, List.mem_filterMap]

/-- What is remembered after a join: what was, and the network. -/
theorem mem_rememberNetwork {markers : List Bytes} {networkId id : UInt64} :
    id ∈ rememberedNetworks (rememberNetwork markers networkId true) ↔
      id = networkId ∨ id ∈ rememberedNetworks markers := by
  have hmarked := markedNetwork_networkMarker networkId
  rw [mem_rememberedNetworks, mem_rememberedNetworks, rememberNetwork]
  split
  · simp only [List.mem_append, List.mem_singleton]
    constructor
    · rintro ⟨name, hname | rfl, hid⟩
      · exact .inr ⟨name, hname, hid⟩
      · exact .inl (Option.some.inj (hid.symm.trans hmarked))
    · rintro (rfl | ⟨name, hname, hid⟩)
      · exact ⟨_, .inr rfl, hmarked⟩
      · exact ⟨name, .inl hname, hid⟩
  · rename_i hthere
    have hmem : networkMarker networkId ∈ markers := by simpa using hthere
    constructor
    · exact .inr
    · rintro (rfl | h)
      · exact ⟨_, hmem, hmarked⟩
      · exact h

/-- What is remembered after a leave: whatever has another marker. -/
theorem mem_forgetNetwork {markers : List Bytes} {networkId id : UInt64} :
    id ∈ rememberedNetworks (forgetNetwork markers networkId true) ↔
      ∃ name ∈ markers, name ≠ networkMarker networkId ∧ markedNetwork name = some id := by
  rw [mem_rememberedNetworks, forgetNetwork, if_pos rfl]
  simp [and_assoc]

/-- Every file that stands for a network has the name the service gives it. -/
def CanonicalMarkers (markers : List Bytes) : Prop :=
  ∀ name ∈ markers, ∀ networkId, markedNetwork name = some networkId → name = networkMarker networkId

theorem CanonicalMarkers.remember {markers : List Bytes} (h : CanonicalMarkers markers) (networkId : UInt64) (written : Bool) :
    CanonicalMarkers (rememberNetwork markers networkId written) := by
  unfold rememberNetwork
  split
  · intro name hname id hid
    rcases List.mem_append.mp hname with hname | hname
    · exact h name hname id hid
    · obtain rfl := List.mem_singleton.mp hname
      rw [markedNetwork_networkMarker] at hid
      rw [Option.some.inj hid]
  · exact h

theorem CanonicalMarkers.forget {markers : List Bytes} (h : CanonicalMarkers markers) (networkId : UInt64) (removed : Bool) :
    CanonicalMarkers (forgetNetwork markers networkId removed) := by
  unfold forgetNetwork
  split
  · exact fun name hname => h name (List.mem_filter.mp hname).1
  · exact h

/-- A leave forgets the network and no other. -/
theorem mem_forgetNetwork_of_canonical {markers : List Bytes} (h : CanonicalMarkers markers) {networkId id : UInt64} :
    id ∈ rememberedNetworks (forgetNetwork markers networkId true) ↔ id ∈ rememberedNetworks markers ∧ id ≠ networkId := by
  rw [mem_forgetNetwork, mem_rememberedNetworks]
  constructor
  · rintro ⟨name, hname, hne, hid⟩
    refine ⟨⟨name, hname, hid⟩, ?_⟩
    rintro rfl
    exact hne (h name hname _ hid)
  · rintro ⟨⟨name, hname, hid⟩, hne⟩
    refine ⟨name, hname, ?_, hid⟩
    rintro rfl
    rw [markedNetwork_networkMarker] at hid
    exact hne (Option.some.inj hid).symm

/-! ### Answers -/

/-- The status of an answer without a body. -/
inductive StatusCode where
  | ok
  | badRequest
  | notFound
  | unprocessableEntity
  deriving DecidableEq

structure NetworkResponse where
  id : Bytes
  name : Bytes
  status : Bytes
  assignedAddresses : List Bytes
  mac : Bytes
  mtu : UInt16
  portDeviceName : Bytes
  deriving DecidableEq

def statusOk : Bytes := ascii ['O', 'K']

def statusRequesting : Bytes :=
  ascii ['R', 'E', 'Q', 'U', 'E', 'S', 'T', 'I', 'N', 'G', '_', 'C', 'O', 'N', 'F', 'I', 'G', 'U', 'R', 'A', 'T', 'I', 'O', 'N']

/-- An address and the length of its prefix. -/
def prefixText (ip : Bytes) (bits : Nat) : Bytes := ip ++ 0x2f :: formatDecimal bits

/-- A text at the end of a list that does not have it. -/
def pushNew (assigned : List Bytes) (text : Bytes) : List Bytes := if assigned.contains text then assigned else assigned ++ [text]

/-- The addresses the directory lists for us, and the assigned ones. -/
def assignedAddresses (net : NetworkMembership) (ours : ByteVec 5) : List Bytes :=
  let listed := match net.members.find? fun member => member.ztAddress = ours with
    | none => []
    | some member =>
      (member.ipv4.map fun ip => prefixText (formatIpv4 ip.1) ip.2.toNat).toList ++
        (member.ipv6.map fun ip => prefixText (formatIpv6 ip.1) ip.2.toNat).toList
  let listed := match net.assignedIpv4 with
    | none => listed
    | some ip => pushNew listed (prefixText (formatIpv4 ip) 32)
  match net.assignedIpv6 with
  | none => listed
  | some ip => pushNew listed (prefixText (formatIpv6 ip) 128)

def membershipToResponse (net : NetworkMembership) (ours : ByteVec 5) (portDeviceName : Bytes) : NetworkResponse where
  id := hexBytes (be64 net.networkId)
  name := []
  status := if net.ourCom.isSome then statusOk else statusRequesting
  assignedAddresses := assignedAddresses net ours
  mac := Controller.formatMac (Ethernet.deriveMac ours net.networkId)
  mtu := net.mtu
  portDeviceName

/-- The MTU of a membership until its configuration arrives. -/
def defaultNetworkMtu : UInt16 := 2800

/-! ### Calls -/

namespace Api

def listNetworks (n : Node) (tunNames : SortedMap UInt64 Bytes) : List NetworkResponse :=
  n.networks.map fun net => membershipToResponse net n.address ((tunNames.get? net.networkId).getD [])

/-- A network joined anew is remembered; one that is joined is asked for again and keeps
what it has. -/
def joinNetwork (n : Node) (markers : List Bytes) (tunNames : SortedMap UInt64 Bytes) (id : Bytes) (written : Bool) :
    (Node × List Bytes) × Except StatusCode NetworkResponse :=
  match parseHexU64 id with
  | none => ((n, markers), .error .badRequest)
  | some networkId =>
    match n.findNetwork networkId with
    | some existing =>
      ((rejoinNetwork n networkId, markers),
        .ok (membershipToResponse existing n.address ((tunNames.get? networkId).getD [])))
    | none =>
      ((n.joinNetwork (.new networkId defaultNetworkMtu), rememberNetwork markers networkId written),
        .ok { id := hexBytes (be64 networkId)
              name := []
              status := statusRequesting
              assignedAddresses := []
              mac := Controller.formatMac (Ethernet.deriveMac n.address networkId)
              mtu := 2800
              portDeviceName := [] })

def leaveNetwork (n : Node) (markers : List Bytes) (id : Bytes) (removed : Bool) : (Node × List Bytes) × StatusCode :=
  match parseHexU64 id with
  | none => ((n, markers), .badRequest)
  | some networkId => ((Service.leaveNetwork n networkId, forgetNetwork markers networkId removed), .ok)

end Api

end Service

end ManyTier
