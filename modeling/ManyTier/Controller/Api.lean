import ManyTier.Controller.Backends
import ManyTier.Controller.NetworkApi
import ManyTier.Controller.RuleJson
import ManyTier.Lib.SortedMap

/-! The calls that manage the controller's networks and members.

The API reads and writes the records that the engine serves nodes from: both use the one
storage. A call either writes nothing, writes networks with their pools and routes, or
writes or deletes the one member it names. -/
namespace ManyTier.Controller

/-! ### The storage of the engine -/

namespace SqliteStorage

/-- The state a write leaves, or what its error says. -/
def written (text : StorageError → Bytes) (x : Attempt SqliteStorage StorageError Unit) (s : SqliteStorage) :
    Except Bytes SqliteStorage :=
  match x.run s with
  | (.ok (), s') => .ok s'
  | (.error e, _) => .error (text e)

/-- The calls of the engine; `text` is what an error of the database says. -/
def storage (text : StorageError → Bytes) : Storage SqliteStorage where
  getNetwork s id := .ok (s.getNetwork id)
  createNetwork s network := written text (createNetwork network) s
  getMember s id node := .ok (s.getMember id node)
  upsertMember s member := written text (upsertMember member) s
  listMembers s id := .ok (s.listMembers id)
  getIpPools s id := .ok (s.getIpPools id)
  getRoutes s id := .ok (s.getRoutes id)
  getAssignedIps s id := .ok (s.getAssignedIps id)

theorem storage_createNetwork {text : StorageError → Bytes} {network : NetworkRecord} {s s' : SqliteStorage}
    (h : (storage text).createNetwork s network = .ok s') :
    ∃ networks, s.networks.insert network = some networks ∧ s' = { s with networks } := by
  cases hinsert : s.networks.insert network with
  | none =>
    have hrun : (createNetwork network).run s = (.error .constraint, s) := Attempt.run_write_error (by rw [hinsert]; rfl)
    simp only [storage, written, hrun] at h
    cases h
  | some networks =>
    have hrun : (createNetwork network).run s = (.ok (), { s with networks }) := Attempt.run_write (by rw [hinsert]; rfl)
    simp only [storage, written, hrun] at h
    exact ⟨networks, rfl, (Except.ok.inj h).symm⟩

/-- Every member is under its own key. -/
theorem keyed (s : SqliteStorage) : s.view.Keyed := fun id node _ h =>
  Prod.mk.inj (Table.find?_eq_some.mp (show s.members.find? (id, node) = _ from h)).2

theorem sqlite_faithful (text : StorageError → Bytes) : Faithful (storage text) view where
  getNetwork _ _ := rfl
  getMember _ _ _ := rfl
  upsertMember s m := ⟨_, rfl, view_upsertMember s m⟩
  listMembers s _ := ⟨_, rfl, listsNodes_membersOf s.members _ fun _ => rfl⟩
  getIpPools _ _ := rfl
  getRoutes _ _ := rfl
  getAssignedIps s id := by
    refine ⟨_, rfl, fun ip => ?_⟩
    constructor
    · intro hip
      obtain ⟨m, hm, hip⟩ := List.mem_flatMap.mp hip
      obtain ⟨hrow, hid⟩ := List.mem_filter.mp hm
      exact ⟨m.nodeId, m, Table.find?_eq_some.mpr ⟨hrow, Prod.ext (of_decide_eq_true hid) rfl⟩, hip⟩
    · rintro ⟨node, m, hm, hip⟩
      obtain ⟨hrow, hkey⟩ := Table.find?_eq_some.mp hm
      exact List.mem_flatMap.mpr ⟨m, List.mem_filter.mpr ⟨hrow, decide_eq_true (congrArg Prod.fst hkey)⟩, hip⟩
  networkKey _ _ _ h := (Table.find?_eq_some.mp h).2
  keyed := keyed

end SqliteStorage

/-! ### Requests and responses -/

structure TagResponse where
  id : UInt32
  value : UInt32
  deriving DecidableEq

structure ControllerNetworkResponse where
  id : Bytes
  name : Text
  isPrivate : Bool
  creationTime : UInt64
  revision : UInt64
  multicastLimit : UInt32
  mtu : UInt16
  v4AssignMode : Json
  v6AssignMode : Json
  ipAssignmentPools : List IpPoolResponse
  enableBroadcast : Bool
  routes : List RouteResponse
  rules : List RuleResponse
  capabilities : List CapabilityResponse
  tags : List TagDefinitionResponse

structure ControllerMemberResponse where
  id : Bytes
  networkId : Bytes
  authorized : Bool
  ipAssignments : List Text
  creationTime : UInt64
  lastSeen : UInt64
  name : Text
  revision : UInt64
  activeBridge : Bool
  noAutoAssignIps : Bool
  lastAuthorizedTime : UInt64
  lastDeauthorizedTime : UInt64
  vMajor : Int
  vMinor : Int
  vRev : Int
  vProto : Int
  capabilities : List UInt32
  tags : List TagResponse
  deriving DecidableEq

/-- What an update of a member may change; what is absent stays. -/
structure UpdateMemberRequest where
  authorized : Option Bool
  ipAssignments : Option (List Text)
  name : Option Text
  activeBridge : Option Bool
  noAutoAssignIps : Option Bool
  capabilities : Option (List UInt32)
  tags : Option (List TagResponse)

def formatNetworkId (id : UInt64) : Bytes := hexBytes (be64 id)

def v4AssignModeToJson (mode : Text) : Json := jsonObject [(['z', 't'], .bool (mode = assignModeZt))]

def v6AssignModeToJson (mode : Text) : Json := jsonObject
  [(['z', 't'], .bool (mode = assignModeZt)), (['6', 'p', 'l', 'a', 'n', 'e'], .bool (mode = .literal ['6', 'p', 'l', 'a', 'n', 'e'])),
    (['r', 'f', 'c', '4', '1', '9', '3'], .bool (mode = .literal ['r', 'f', 'c', '4', '1', '9', '3']))]

def ipPoolToResponse (pool : IpPool) : IpPoolResponse where
  ipRangeStart := .ofBytes (formatIpv4 pool.rangeStart)
  ipRangeEnd := .ofBytes (formatIpv4 pool.rangeEnd)

def routeToResponse (route : ManagedRoute) : RouteResponse := ⟨route.target, route.via⟩

def capabilityToResponse (cap : Capability) : CapabilityResponse := ⟨cap.id, cap.rules.map ruleToResponse⟩

/-- Texts are ordered by their bytes. -/
instance : LinearOrder Text :=
  LinearOrder.lift' (fun t => t.bytes.map UInt8.toNat) fun t t' h => by
    have hbytes : t.bytes = t'.bytes := List.map_injective_iff.mpr (fun _ _ => UInt8.toNat_inj.mp) h
    cases t
    cases t'
    cases hbytes
    rfl

/-- The named values in the order of their names; of two under one name the last. -/
def tagDefinitionToResponse (d : TagDefinition) : TagDefinitionResponse :=
  ⟨d.id, d.name, d.default, (SortedMap.ofList d.enums).entries⟩

def tagToResponse (tag : Tag) : TagResponse := ⟨tag.id, tag.value⟩

def tagFromResponse (tag : TagResponse) : Tag := ⟨tag.id, tag.value⟩

def networkToResponse (network : NetworkRecord) (pools : List IpPool) (routes : List ManagedRoute) :
    ControllerNetworkResponse where
  id := formatNetworkId network.id
  name := network.name
  isPrivate := network.isPrivate
  creationTime := network.creationTime
  revision := network.revision
  multicastLimit := network.multicastLimit
  mtu := network.mtu
  v4AssignMode := v4AssignModeToJson network.v4AssignMode
  v6AssignMode := v6AssignModeToJson network.v6AssignMode
  ipAssignmentPools := pools.map ipPoolToResponse
  enableBroadcast := network.enableBroadcast
  routes := routes.map routeToResponse
  rules := network.rules.map ruleToResponse
  capabilities := network.capabilities.map capabilityToResponse
  tags := network.tags.map tagDefinitionToResponse

/-- The version of a member is not known. -/
def memberToResponse (member : MemberRecord) : ControllerMemberResponse where
  id := formatNodeId member.nodeId
  networkId := formatNetworkId member.networkId
  authorized := member.authorized
  ipAssignments := member.ipAssignments
  creationTime := member.creationTime
  lastSeen := member.lastSeen
  name := member.name
  revision := member.revision
  activeBridge := member.activeBridge
  noAutoAssignIps := member.noAutoAssignIps
  lastAuthorizedTime := member.lastAuthorizedTime
  lastDeauthorizedTime := member.lastDeauthorizedTime
  vMajor := -1
  vMinor := -1
  vRev := -1
  vProto := -1
  capabilities := member.capabilities
  tags := member.tags.map tagToResponse

/-! ### Calls -/

/-- A call with what the host gives it: the random bytes of a new network, and the time. -/
inductive ApiCall where
  | listNetworks
  | getNetwork (nwid : Bytes)
  | updateNetwork (nwid : Bytes) (body : UpdateNetworkRequest) (random : Except Bytes (ByteVec 4)) (now : UInt64)
  | deleteNetwork (nwid : Bytes)
  | listMembers (nwid : Bytes)
  | getMember (nwid nodeIdHex : Bytes)
  | updateMember (nwid nodeIdHex : Bytes) (body : UpdateMemberRequest) (now : UInt64)
  | deleteMember (nwid nodeIdHex : Bytes)

inductive ApiAnswer where
  | networks (ids : List Bytes)
  | network (response : ControllerNetworkResponse)
  | members (nodes : List (Bytes × UInt8))
  | member (response : ControllerMemberResponse)
  | ok

/-- Why a call has no answer: the request or the storage, the engine, or the host. -/
inductive CallError where
  | request (e : ApiError)
  | engine (e : Failure)
  | internal (message : Bytes)
  deriving DecidableEq

namespace Api

abbrev Calling (α : Type) := Attempt SqliteStorage CallError α

def parseNetworkId (nwid : Bytes) : Calling UInt64 := .lift ((Controller.parseNetworkId nwid).mapError .request)

/-- The low five bytes of the number. -/
def parseNodeIdBytes (hex : Bytes) : Calling (ByteVec 5) :=
  match parseHexU64 hex with
  | some val => pure (u64ToZtAddress val)
  | none => .fail (.request (.badRequest (ascii ['i', 'n', 'v', 'a', 'l', 'i', 'd', ' ', 'n', 'o', 'd', 'e', ' ', 'I', 'D', ' ',
      'h', 'e', 'x'])))

def asked {α : Type} (x : Attempt SqliteStorage ApiError α) : Calling α := x.mapError .request

def listNetworks : Calling ApiAnswer := .read fun s => .ok (.networks (s.listNetworks.map formatNetworkId))

def getNetwork (nwid : Bytes) : Calling ApiAnswer := do
  let networkId ← parseNetworkId nwid
  let network ← asked (findNetwork networkId)
  let ipPools ← .read fun s => .ok (s.getIpPools networkId)
  let routes ← .read fun s => .ok (s.getRoutes networkId)
  return .network (networkToResponse network ipPools routes)

/-- Whether the body has anything for the record of a network. -/
def changesRecord (body : UpdateNetworkRequest) : Bool :=
  body.name.isSome || body.isPrivate.isSome || body.multicastLimit.isSome || body.mtu.isSome || body.enableBroadcast.isSome ||
    body.v4AssignMode.isSome || body.rules.isSome || body.capabilities.isSome || body.tags.isSome

/-- A new record takes what the body has for it; its revision stays. -/
def applyToCreated (networkId : UInt64) (body : UpdateNetworkRequest) : Calling Unit := do
  if changesRecord body then
    match ← .read fun s => .ok (s.getNetwork networkId) with
    | some network => asked (internally (SqliteStorage.updateNetwork (applyNetworkUpdates network body)))
    | none => return ()
  else return ()

def createNetwork (engine : Engine SqliteStorage) (body : UpdateNetworkRequest) (random : Except Bytes (ByteVec 4))
    (now : UInt64) : Calling ApiAnswer := do
  let randomBytes ← .lift (random.mapError .internal)
  let random24 := u32At randomBytes.toBytes 0 &&& 0x00ffffff
  let networkId ← (engine.createNetwork random24 now).mapError .engine
  applyToCreated networkId body
  asked (updatePools networkId body)
  asked (updateRoutes networkId body)
  match ← .read fun s => .ok (s.getNetwork networkId) with
  | none => .fail (.internal (ascii ['c', 'r', 'e', 'a', 't', 'e', 'd', ' ', 'n', 'e', 't', 'w', 'o', 'r', 'k', ' ', 'n', 'o', 't', ' ',
      'f', 'o', 'u', 'n', 'd']))
  | some network =>
    let ipPools ← .read fun s => .ok (s.getIpPools networkId)
    let routes ← .read fun s => .ok (s.getRoutes networkId)
    return .network (networkToResponse network ipPools routes)

/-- The end of a network id that asks for a new network. -/
def createSuffix : Bytes := List.replicate 6 0x5f

def updateNetwork (engine : Engine SqliteStorage) (nwid : Bytes) (body : UpdateNetworkRequest)
    (random : Except Bytes (ByteVec 4)) (now : UInt64) : Calling ApiAnswer :=
  if createSuffix <:+ nwid then createNetwork engine body random now
  else do
    let updated ← asked (Controller.updateNetwork nwid body)
    return .network (networkToResponse updated.1 updated.2.1 updated.2.2)

/-- The answer is what was there. -/
def deleteNetwork (nwid : Bytes) : Calling ApiAnswer := do
  let networkId ← parseNetworkId nwid
  let network ← asked (findNetwork networkId)
  let ipPools ← .read fun s => .ok (s.getIpPools networkId)
  let routes ← .read fun s => .ok (s.getRoutes networkId)
  asked (internally (SqliteStorage.deleteNetwork networkId))
  return .network (networkToResponse network ipPools routes)

/-- Each node id with 1. -/
def listMembers (nwid : Bytes) : Calling ApiAnswer := do
  let networkId ← parseNetworkId nwid
  .read fun s => .ok (.members ((s.listMembers networkId).map fun node => (formatNodeId node, 1)))

def getMember (nwid nodeIdHex : Bytes) : Calling ApiAnswer := do
  let networkId ← parseNetworkId nwid
  let nodeId ← parseNodeIdBytes nodeIdHex
  match ← .read fun s => .ok (s.getMember networkId nodeId) with
  | some member => return .member (memberToResponse member)
  | none => .fail (.request (.notFound (ascii ['m', 'e', 'm', 'b', 'e', 'r', ' ', 'n', 'o', 't', ' ', 'f', 'o', 'u', 'n', 'd'])))

/-- The record that an update of a member writes. The times tell when its authorisation
last changed. -/
def applyMemberUpdates (member : MemberRecord) (body : UpdateMemberRequest) (now : UInt64) : MemberRecord :=
  { member with
    name := body.name.getD member.name
    ipAssignments := body.ipAssignments.getD member.ipAssignments
    lastAuthorizedTime := if body.authorized = some true ∧ ¬ member.authorized then now else member.lastAuthorizedTime
    lastDeauthorizedTime := if body.authorized = some false ∧ member.authorized then now else member.lastDeauthorizedTime
    authorized := body.authorized.getD member.authorized
    activeBridge := body.activeBridge.getD member.activeBridge
    noAutoAssignIps := body.noAutoAssignIps.getD member.noAutoAssignIps
    capabilities := body.capabilities.getD member.capabilities
    tags := (body.tags.map fun tags => tags.map tagFromResponse).getD member.tags
    revision := member.revision + 1 }

/-- A member that is not on record is put there. -/
def updateMember (nwid nodeIdHex : Bytes) (body : UpdateMemberRequest) (now : UInt64) : Calling ApiAnswer := do
  let networkId ← parseNetworkId nwid
  let nodeId ← parseNodeIdBytes nodeIdHex
  let member ← .read fun s => .ok ((s.getMember networkId nodeId).getD (newMember networkId nodeId now))
  let member := applyMemberUpdates member body now
  asked (internally (SqliteStorage.upsertMember member))
  return .member (memberToResponse member)

def deleteMember (nwid nodeIdHex : Bytes) : Calling ApiAnswer := do
  let networkId ← parseNetworkId nwid
  let nodeId ← parseNodeIdBytes nodeIdHex
  asked (internally (SqliteStorage.deleteMember networkId nodeId))
  return .ok

/-- A call where there is a controller. -/
def execute (engine : Engine SqliteStorage) : ApiCall → Calling ApiAnswer
  | .listNetworks => listNetworks
  | .getNetwork nwid => getNetwork nwid
  | .updateNetwork nwid body random now => updateNetwork engine nwid body random now
  | .deleteNetwork nwid => deleteNetwork nwid
  | .listMembers nwid => listMembers nwid
  | .getMember nwid nodeIdHex => getMember nwid nodeIdHex
  | .updateMember nwid nodeIdHex body now => updateMember nwid nodeIdHex body now
  | .deleteMember nwid nodeIdHex => deleteMember nwid nodeIdHex

def call (controller : Option (Engine SqliteStorage)) (c : ApiCall) : Calling ApiAnswer :=
  match controller with
  | none => .fail (.request (.notFound (ascii ['c', 'o', 'n', 't', 'r', 'o', 'l', 'l', 'e', 'r', ' ', 'n', 'o', 't', ' ', 'e', 'n', 'a',
      'b', 'l', 'e', 'd'])))
  | some engine => execute engine c

end Api

end ManyTier.Controller
