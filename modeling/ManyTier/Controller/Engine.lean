import ManyTier.Controller.Directory
import ManyTier.Controller.IpPool
import ManyTier.Controller.Storage
import ManyTier.Lib.Attempt

/-! The controller's calls.

A configuration request looks up or creates the member, applies the network's policy,
assigns an address if the member has none, notes the time, and builds the configuration
from what is stored then. A call that fails keeps what it wrote before. -/
namespace ManyTier.Controller

/-- The controller engine: its identity and the calls of its storage. The address is the one of the
node it runs in. -/
structure Engine (σ : Type) where
  address : Address
  signingKey : ByteVec 32
  storage : Storage σ

structure ConfigResponse where
  config : NetworkConfigPayload
  credentials : NetworkCredentialsPayload
  deriving DecidableEq

/-- A member that was not seen before. -/
def newMember (networkId : UInt64) (requester : ByteVec 5) (now : UInt64) : MemberRecord where
  networkId
  nodeId := requester
  authorized := false
  ipAssignments := []
  creationTime := now
  lastSeen := now
  name := .literal []
  revision := 0
  lastAuthorizedTime := 0
  lastDeauthorizedTime := 0
  activeBridge := false
  noAutoAssignIps := false
  capabilities := []
  tags := []

/-- The mode in which addresses are assigned. -/
def assignModeZt : Text := .literal ['z', 't']

def assignModeNone : Text := .literal ['n', 'o', 'n', 'e']

section
variable {σ : Type}

def storageError (e : Bytes) : Failure := .error (.storageError e)

/-- A read of the storage, and a write. -/
def stored {α : Type} (f : σ → Except Bytes α) : Attempt σ Failure α := .read fun s => (f s).mapError storageError

def storing (f : σ → Except Bytes σ) : Attempt σ Failure Unit := .write fun s => (f s).mapError storageError

namespace Engine
variable (c : Engine σ)

/-- A private network under the controller's address, with the defaults. -/
def createNetwork (random24Bits : UInt32) (now : UInt64) : Attempt σ Failure UInt64 := do
  let networkId := (ztAddressToU64 c.address.bytes <<< 24) ||| (random24Bits.toUInt64 &&& 0x00ffffff)
  let network : NetworkRecord :=
    { id := networkId, name := .literal [], isPrivate := true, creationTime := now, revision := 1
      multicastLimit := 32, mtu := 2800, v4AssignMode := assignModeZt, v6AssignMode := assignModeNone
      rules := [], capabilities := [], tags := [], enableBroadcast := true }
  storing fun s => c.storage.createNetwork s network
  return networkId

/-! ### A configuration request -/

def lookupNetwork (networkId : UInt64) : Attempt σ Failure NetworkRecord := do
  match ← stored fun s => c.storage.getNetwork s networkId with
  | some network => return network
  | none => .fail (.error .networkNotFound)

def findOrCreateMember (networkId : UInt64) (requester : ByteVec 5) (now : UInt64) : Attempt σ Failure MemberRecord := do
  match ← stored fun s => c.storage.getMember s networkId requester with
  | some member => return member
  | none =>
    let member := newMember networkId requester now
    storing fun s => c.storage.upsertMember s member
    return member

/-- A private network refuses who is not authorised; a public one authorises. -/
def applyPolicy (network : NetworkRecord) (member : MemberRecord) : Attempt σ Failure MemberRecord := do
  if network.isPrivate then
    if ! member.authorized then .fail (.error .memberNotAuthorized) else return member
  else if ! member.authorized then
    let member := { member with authorized := true }
    storing fun s => c.storage.upsertMember s member
    return member
  else return member

/-- An address from the pools for a member that has none. -/
def assignIp (networkId : UInt64) (network : NetworkRecord) (member : MemberRecord) :
    Attempt σ Failure MemberRecord := do
  if member.ipAssignments.isEmpty && network.v4AssignMode = assignModeZt then
    let pools ← stored fun s => c.storage.getIpPools s networkId
    if pools.isEmpty then return member
    else
      let assigned ← stored fun s => c.storage.getAssignedIps s networkId
      match allocateIpv4 pools assigned with
      | none => return member
      | some ip =>
        let member := { member with ipAssignments := member.ipAssignments ++ [assignmentOf ip] }
        storing fun s => c.storage.upsertMember s member
        return member
  else return member

def noteSeen (member : MemberRecord) (now : UInt64) : Attempt σ Failure MemberRecord := do
  let member := { member with lastSeen := now }
  storing fun s => c.storage.upsertMember s member
  return member

/-- The records of the members there are. -/
def readMembers (networkId : UInt64) : List (ByteVec 5) → Attempt σ Failure (List MemberRecord)
  | [] => return []
  | node :: rest => do
    let record ← stored fun s => c.storage.getMember s networkId node
    let records ← readMembers networkId rest
    return record.toList ++ records

variable (pr : Primitives)

/-- The capabilities of the network that the member is granted. -/
def grantedCapabilities (network : NetworkRecord) (member : MemberRecord) : List Capability :=
  network.capabilities.filter fun cap => member.capabilities.contains cap.id

def capabilitiesRaw (networkId : UInt64) (requester : ByteVec 5) (network : NetworkRecord) (member : MemberRecord)
    (now : UInt64) : Bytes :=
  let caps := grantedCapabilities network member
  if caps.isEmpty then []
  else serializeCapabilitiesSigned pr networkId requester c.address.bytes now c.signingKey caps

def tagsRaw (networkId : UInt64) (requester : ByteVec 5) (member : MemberRecord) (now : UInt64) : Bytes :=
  if member.tags.isEmpty then []
  else serializeTagsSigned pr networkId requester c.address.bytes now c.signingKey member.tags

/-- The configuration and the credentials of a member. -/
def issueConfig (networkId : UInt64) (requester : ByteVec 5) (network : NetworkRecord) (member : MemberRecord)
    (now : UInt64) : Attempt σ Failure ConfigResponse := do
  let routes ← stored fun s => c.storage.getRoutes s networkId
  let com := buildSignedCom pr c.signingKey c.address.bytes networkId (ztAddressToU64 requester) now
  let capabilitiesRaw := c.capabilitiesRaw pr networkId requester network member now
  let tagsRaw := c.tagsRaw pr networkId requester member now
  let base ← .lift ((buildNetworkConfig network member routes com now capabilitiesRaw tagsRaw).mapError .fault)
  let nodes ← stored fun s => c.storage.listMembers s networkId
  let members ← c.readMembers networkId nodes
  let dictData ← .lift (appendPeerDirectory pr c.signingKey c.address.bytes networkId now base members)
  return {
    config := { networkId, dictData, flags := none, configUpdateId := none, totalLength := none
                chunkIndex := none, signatureType := none, signature := none }
    credentials := { com := some com, capabilitiesRaw, tagsRaw, revocationsRaw := [], cooRaw := [] } }

def handleConfigRequest (networkId : UInt64) (requester : ByteVec 5) (now : UInt64) :
    Attempt σ Failure ConfigResponse := do
  let network ← c.lookupNetwork networkId
  let member ← c.findOrCreateMember networkId requester now
  let member ← c.applyPolicy network member
  let member ← c.assignIp networkId network member
  let member ← c.noteSeen member now
  c.issueConfig pr networkId requester network member now

/-! ### Authorisation -/

def setAuthorized (networkId : UInt64) (node : ByteVec 5) (authorized : Bool) : Attempt σ Failure Unit := do
  match ← stored fun s => c.storage.getMember s networkId node with
  | none => .fail (.error .networkNotFound)
  | some member => storing fun s => c.storage.upsertMember s { member with authorized }

def authorizeMember (networkId : UInt64) (node : ByteVec 5) : Attempt σ Failure Unit := c.setAuthorized networkId node true

def deauthorizeMember (networkId : UInt64) (node : ByteVec 5) : Attempt σ Failure Unit :=
  c.setAuthorized networkId node false

end Engine

/-! ### Runs -/

inductive Command where
  | configRequest (networkId : UInt64) (requester : ByteVec 5) (now : UInt64)
  | authorize (networkId : UInt64) (node : ByteVec 5)
  | deauthorize (networkId : UInt64) (node : ByteVec 5)
  deriving DecidableEq

inductive Reply where
  | config (response : ConfigResponse)
  | done
  deriving DecidableEq

def Engine.execute (c : Engine σ) (pr : Primitives) : Command → Attempt σ Failure Reply
  | .configRequest networkId requester now => do
    return .config (← c.handleConfigRequest pr networkId requester now)
  | .authorize networkId node => do
    c.authorizeMember networkId node
    return .done
  | .deauthorize networkId node => do
    c.deauthorizeMember networkId node
    return .done

/-- A step of the controller never faults: a call that does not return has an outcome of
its own. -/
def Engine.step (c : Engine σ) (pr : Primitives) (s : σ) (command : Command) :
    Except Empty (σ × Except Failure Reply) :=
  let (reply, s') := (c.execute pr command).run s
  .ok (s', reply)

theorem Engine.step_eq (c : Engine σ) (pr : Primitives) (s : σ) (command : Command) :
    c.step pr s command = .ok (((c.execute pr command).run s).2, ((c.execute pr command).run s).1) := rfl

end

end ManyTier.Controller
