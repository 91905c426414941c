import ManyTier.Controller.Engine
import ManyTier.Controller.RuleFields
import ManyTier.Controller.Sqlite

/-! Updates of a network through the API.

An update reads the record, changes it and raises its revision, and then writes the
record, the pools and the routes one after the other. A later write that fails leaves the
earlier ones (`updateNetwork_atomic_iff`): the record is new although the answer is an
error. -/
namespace ManyTier.Controller

structure IpPoolResponse where
  ipRangeStart : Text
  ipRangeEnd : Text
  deriving DecidableEq

structure RouteResponse where
  target : Text
  via : Option Text
  deriving DecidableEq

/-- What an update may change; what is absent stays. -/
structure UpdateNetworkRequest where
  name : Option Text
  isPrivate : Option Bool
  multicastLimit : Option UInt32
  mtu : Option UInt16
  v4AssignMode : Option Json
  ipAssignmentPools : Option (List IpPoolResponse)
  routes : Option (List RouteResponse)
  enableBroadcast : Option Bool
  rules : Option (List RuleResponse)
  capabilities : Option (List CapabilityResponse)
  tags : Option (List TagDefinitionResponse)

/-- An error response: its status and its message, or the storage error it prints. -/
inductive ApiError where
  | badRequest (message : Bytes)
  | notFound (message : Bytes)
  | internal (e : StorageError)
  deriving DecidableEq

def parseNetworkId (hex : Bytes) : Except ApiError UInt64 :=
  match parseHexU64 hex with
  | some id => .ok id
  | none => .error (.badRequest (ascii ['i', 'n', 'v', 'a', 'l', 'i', 'd', ' ', 'n', 'e', 't', 'w', 'o', 'r', 'k', ' ',
      'I', 'D', ' ', 'h', 'e', 'x']))

/-- Four numbers between dots. -/
def parseDottedIpv4 (s : Text) : Option (ByteVec 4) := parseIpv4 s.bytes

def parseIpPool (resp : IpPoolResponse) : Option IpPool := do
  let start ← parseDottedIpv4 resp.ipRangeStart
  let stop ← parseDottedIpv4 resp.ipRangeEnd
  return ⟨start, stop⟩

def parseManagedRoute (resp : RouteResponse) : ManagedRoute := ⟨resp.target, resp.via⟩

/-- The assignment mode that `{"zt": …}` asks for. -/
def assignModeOf (v4 : Json) : Option Text :=
  ((v4.get (ascii ['z', 't'])).bind Json.asBool).map fun zt => if zt then assignModeZt else assignModeNone

def applyNetworkUpdates (network : NetworkRecord) (body : UpdateNetworkRequest) : NetworkRecord :=
  { network with
    name := body.name.getD network.name
    isPrivate := body.isPrivate.getD network.isPrivate
    multicastLimit := body.multicastLimit.getD network.multicastLimit
    mtu := body.mtu.getD network.mtu
    enableBroadcast := body.enableBroadcast.getD network.enableBroadcast
    v4AssignMode := (body.v4AssignMode.bind assignModeOf).getD network.v4AssignMode
    rules := (body.rules.map fun rules => rules.map ruleFromResponse).getD network.rules
    capabilities := (body.capabilities.map fun caps => caps.map capabilityFromResponse).getD network.capabilities
    tags := (body.tags.map fun tags => tags.map tagDefinitionFromResponse).getD network.tags }

/-- The record that an update writes. -/
def updatedNetwork (network : NetworkRecord) (body : UpdateNetworkRequest) : NetworkRecord :=
  let network := applyNetworkUpdates network body
  { network with revision := network.revision + 1 }

/-- A call whose error is an internal one. -/
def internally {α : Type} (x : Attempt SqliteStorage StorageError α) : Attempt SqliteStorage ApiError α :=
  x.mapError .internal

def findNetwork (networkId : UInt64) : Attempt SqliteStorage ApiError NetworkRecord := .read fun s =>
  match s.getNetwork networkId with
  | some network => .ok network
  | none => .error (.notFound (ascii ['n', 'e', 't', 'w', 'o', 'r', 'k', ' ', 'n', 'o', 't', ' ', 'f', 'o', 'u', 'n', 'd']))

/-- The pools of a request that parse. -/
def updatePools (networkId : UInt64) (body : UpdateNetworkRequest) : Attempt SqliteStorage ApiError Unit :=
  match body.ipAssignmentPools with
  | some pools => internally (SqliteStorage.setIpPools networkId (pools.filterMap parseIpPool))
  | none => pure ()

def updateRoutes (networkId : UInt64) (body : UpdateNetworkRequest) : Attempt SqliteStorage ApiError Unit :=
  match body.routes with
  | some routes => internally (SqliteStorage.setRoutes networkId (routes.map parseManagedRoute))
  | none => pure ()

/-- The update of an existing network. The answer is the record with its pools and routes. -/
def updateNetwork (nwid : Bytes) (body : UpdateNetworkRequest) :
    Attempt SqliteStorage ApiError (NetworkRecord × List IpPool × List ManagedRoute) := do
  let networkId ← .lift (parseNetworkId nwid)
  let network ← findNetwork networkId
  let network := updatedNetwork network body
  internally (SqliteStorage.updateNetwork network)
  updatePools networkId body
  updateRoutes networkId body
  let ipPools ← .read fun s => .ok (s.getIpPools networkId)
  let routes ← .read fun s => .ok (s.getRoutes networkId)
  return (network, ipPools, routes)

/-! ### What an update leaves -/

/-- No pool that parses comes twice, and no target. -/
structure UpdateNetworkRequest.Distinct (body : UpdateNetworkRequest) : Prop where
  pools : ∀ pools, body.ipAssignmentPools = some pools → (pools.filterMap parseIpPool).Nodup
  routes : ∀ routes, body.routes = some routes → (routes.map RouteResponse.target).Nodup

/-- One network is in two stores what it is in the other. -/
structure SameNetwork (s s' : SqliteStorage) (id : UInt64) : Prop where
  network : s'.getNetwork id = s.getNetwork id
  ipPools : s'.getIpPools id = s.getIpPools id
  routes : s'.getRoutes id = s.getRoutes id

section
variable {s : SqliteStorage} {id : UInt64} {network : NetworkRecord}

theorem revision_updatedNetwork (network : NetworkRecord) (body : UpdateNetworkRequest) :
    (updatedNetwork network body).revision ≠ network.revision := by
  show network.revision + 1 ≠ network.revision
  intro h
  have hone := UInt64.toNat_inj.mpr h
  rw [UInt64.toNat_add] at hone
  have hlt := network.revision.toNat_lt
  simp at hone
  omega

/-- The state after the record is written. -/
def recorded (s : SqliteStorage) (network : NetworkRecord) (body : UpdateNetworkRequest) : SqliteStorage :=
  { s with networks := s.networks.update (updatedNetwork network body) }

/-- The new record differs from the old one. -/
theorem getNetwork_recorded (h : s.getNetwork id = some network) (body : UpdateNetworkRequest) :
    (recorded s network body).getNetwork id = some (updatedNetwork network body) := by
  obtain ⟨-, hid⟩ := Table.find?_eq_some.mp h
  show (s.networks.update (updatedNetwork network body)).find? id = _
  rw [Table.find?_update, if_pos (show id = (updatedNetwork network body).id from hid.symm)]
  exact congrArg (Option.map fun _ => updatedNetwork network body) h

/-- A state with the new record is not the one before. -/
theorem not_sameNetwork (h : s.getNetwork id = some network) (body : UpdateNetworkRequest) {s' : SqliteStorage}
    (hs' : s'.networks = (recorded s network body).networks) : ¬ SameNetwork s s' id := by
  intro hsame
  have hnew : s'.getNetwork id = some (updatedNetwork network body) := by
    rw [← getNetwork_recorded h body]
    exact congrArg (fun t : Table NetworkRecord.id => t.find? id) hs'
  have heq := hnew.symm.trans (hsame.network.trans h)
  exact revision_updatedNetwork network body (congrArg NetworkRecord.revision (Option.some.inj heq))

/-- Pools change nothing but the pools, and go in if none comes twice. -/
theorem run_updatePools (id : UInt64) (body : UpdateNetworkRequest) (s : SqliteStorage) :
    ∃ ipPools r, (updatePools id body).run s = (r, { s with ipPools }) ∧
      (r = .ok () ↔ ∀ pools, body.ipAssignmentPools = some pools → (pools.filterMap parseIpPool).Nodup) := by
  unfold updatePools
  cases hbody : body.ipAssignmentPools with
  | none => exact ⟨s.ipPools, .ok (), rfl, by simp⟩
  | some pools =>
    have hset := SqliteStorage.setIpPools_eq id (pools.filterMap parseIpPool) s
    split at hset
    · rename_i hdistinct
      obtain ⟨ipPools, hrun, -⟩ := hset
      exact ⟨ipPools, .ok (), Attempt.run_mapError hrun _, by simpa using hdistinct⟩
    · rename_i hdistinct
      obtain ⟨ipPools, hrun⟩ := hset
      exact ⟨ipPools, .error (.internal .constraint), Attempt.run_mapError hrun _, by simpa using hdistinct⟩

theorem run_updateRoutes (id : UInt64) (body : UpdateNetworkRequest) (s : SqliteStorage) :
    ∃ table r, (updateRoutes id body).run s = (r, { s with routes := table }) ∧
      (r = .ok () ↔ ∀ routes, body.routes = some routes → (routes.map RouteResponse.target).Nodup) := by
  have htargets : ∀ routes : List RouteResponse,
      (routes.map parseManagedRoute).map ManagedRoute.target = routes.map RouteResponse.target := fun routes => by
    rw [List.map_map]
    rfl
  unfold updateRoutes
  cases hbody : body.routes with
  | none => exact ⟨s.routes, .ok (), rfl, by simp⟩
  | some routes =>
    have hset := SqliteStorage.setRoutes_eq id (routes.map parseManagedRoute) s
    rw [htargets] at hset
    split at hset
    · rename_i hdistinct
      obtain ⟨table, hrun, -⟩ := hset
      exact ⟨table, .ok (), Attempt.run_mapError hrun _, by simpa using hdistinct⟩
    · rename_i hdistinct
      exact ⟨s.routes, .error (.internal .constraint), Attempt.run_mapError hset _, by simpa using hdistinct⟩

/-- An update of a network that is there always writes the record, and answers with it
exactly if the request is distinct. -/
theorem run_updateNetwork {nwid : Bytes} (hid : parseHexU64 nwid = some id) (hexists : s.getNetwork id = some network)
    (body : UpdateNetworkRequest) :
    ∃ r s', (updateNetwork nwid body).run s = (r, s') ∧ s'.networks = (recorded s network body).networks ∧
      ((∃ answer, r = .ok answer) ↔ body.Distinct) := by
  have hparse : (Attempt.lift (parseNetworkId nwid) : Attempt SqliteStorage ApiError UInt64).run s = (.ok id, s) := by
    rw [Attempt.run_lift, parseNetworkId, hid]
  have hfind : (findNetwork id).run s = (.ok network, s) := by
    apply Attempt.run_read
    rw [hexists]
  have hrecord : (internally (SqliteStorage.updateNetwork (updatedNetwork network body))).run s =
      (.ok (), recorded s network body) := rfl
  obtain ⟨ipPools, rPools, hpools, hpoolsOk⟩ := run_updatePools id body (recorded s network body)
  obtain ⟨table, rRoutes, hroutes, hroutesOk⟩ := run_updateRoutes id body { recorded s network body with ipPools }
  rw [updateNetwork, Attempt.run_bind_ok hparse, Attempt.run_bind_ok hfind, Attempt.run_bind_ok hrecord]
  cases rPools with
  | error e =>
    refine ⟨_, _, Attempt.run_bind_error hpools _, rfl, ?_⟩
    constructor
    · rintro ⟨answer, h⟩
      cases h
    · intro hdistinct
      cases hpoolsOk.mpr hdistinct.pools
  | ok =>
    rw [Attempt.run_bind_ok hpools]
    cases rRoutes with
    | error e =>
      refine ⟨_, _, Attempt.run_bind_error hroutes _, rfl, ?_⟩
      constructor
      · rintro ⟨answer, h⟩
        cases h
      · intro hdistinct
        cases hroutesOk.mpr hdistinct.routes
    | ok =>
      rw [Attempt.run_bind_ok hroutes]
      exact ⟨_, _, rfl, rfl, fun _ => ⟨hpoolsOk.mp rfl, hroutesOk.mp rfl⟩, fun _ => ⟨_, rfl⟩⟩

/-- An update that fails leaves the network as it was exactly if the request is distinct,
and then it does not fail. -/
theorem updateNetwork_atomic_iff {nwid : Bytes} (hid : parseHexU64 nwid = some id)
    (hexists : s.getNetwork id = some network) (body : UpdateNetworkRequest) :
    (∀ e s', (updateNetwork nwid body).run s = (.error e, s') → SameNetwork s s' id) ↔ body.Distinct := by
  obtain ⟨r, s', hrun, hnetworks, hok⟩ := run_updateNetwork hid hexists body
  constructor
  · intro hatomic
    apply hok.mp
    cases r with
    | ok answer => exact ⟨answer, rfl⟩
    | error e => exact absurd (hatomic e s' hrun) (not_sameNetwork hexists body hnetworks)
  · intro hdistinct e s'' herror
    obtain ⟨answer, rfl⟩ := hok.mpr hdistinct
    rw [hrun] at herror
    cases (Prod.mk.inj herror).1

end

/-! ### A pool given twice -/

def sampleNetwork : NetworkRecord where
  id := 16
  name := .literal ['l', 'a', 'b']
  isPrivate := true
  creationTime := 0
  revision := 1
  multicastLimit := 32
  mtu := 2800
  v4AssignMode := assignModeZt
  v6AssignMode := assignModeNone
  rules := []
  capabilities := []
  tags := []
  enableBroadcast := true

def hostIn (net host : UInt8) : ByteVec 4 := ⟨[net, 0, 0, host], rfl⟩

/-- A network with a pool and a route. -/
def sampleStore : SqliteStorage where
  networks := ⟨[sampleNetwork], by decide⟩
  members := .empty
  ipPools := ⟨[(16, ⟨hostIn 10 1, hostIn 10 9⟩)], by decide⟩
  routes := ⟨[(16, ⟨.literal ['1', '0', '.', '0', '.', '0', '.', '0', '/', '8'], none⟩)], by decide⟩

/-- New pools, and nothing else. -/
def poolsRequest (pools : List IpPoolResponse) : UpdateNetworkRequest :=
  { name := none, isPrivate := none, multicastLimit := none, mtu := none, v4AssignMode := none
    ipAssignmentPools := some pools, routes := none, enableBroadcast := none, rules := none, capabilities := none
    tags := none }

def samplePool : IpPoolResponse := ⟨.literal ['1', '.', '0', '.', '0', '.', '1'], .literal ['1', '.', '0', '.', '0', '.', '9']⟩

/-- A pool given twice is an error, and yet the revision is raised and the pools are new. -/
theorem doubledPool_not_atomic :
    ∃ s', (updateNetwork [0x31, 0x30] (poolsRequest [samplePool, samplePool])).run sampleStore =
        (.error (.internal .constraint), s') ∧
      ¬ SameNetwork sampleStore s' 16 ∧
      (s'.getNetwork 16).map NetworkRecord.revision = some 2 ∧
      s'.getIpPools 16 = [⟨hostIn 1 1, hostIn 1 9⟩] := by
  refine ⟨_, rfl, ?_, by decide, by decide⟩
  intro hsame
  have hrevision := congrArg (Option.map NetworkRecord.revision) hsame.network
  revert hrevision
  decide

/-- One pool goes in. -/
theorem updateNetwork_atomic_iff_sample :
    ¬ ∃ e s', (updateNetwork [0x31, 0x30] (poolsRequest [samplePool])).run sampleStore = (.error e, s') ∧
      ¬ SameNetwork sampleStore s' 16 := by
  have hexists : sampleStore.getNetwork 16 = some sampleNetwork := by decide
  have hdistinct : (poolsRequest [samplePool]).Distinct := by
    constructor
    · rintro _ ⟨⟩
      decide
    · rintro _ ⟨⟩
  rintro ⟨e, s', hrun, hchanged⟩
  exact hchanged ((updateNetwork_atomic_iff (by decide) hexists _).mpr hdistinct e s' hrun)

end ManyTier.Controller
