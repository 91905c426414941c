import ManyTier.Controller.ControllerStorage

/-! The three storage backends.

In SQLite, in memory and in files each call is what its backend makes of it. Each refines
the store on calls that meet their condition: SQLite and files from any state, memory
from those in which a network is there once. -/
namespace ManyTier.Controller

/-! ### The rows of one network -/

section
variable {ρ : Type} (rows : List (UInt64 × ρ)) (id : UInt64)

/-- The rows under one network's id. -/
def rowsOf : List ρ := (rows.filter fun r => r.1 = id).map Prod.snd

/-- The rows of one network put in place of those there were. -/
theorem rowsOf_append (new : List ρ) (id' : UInt64) :
    rowsOf ((rows.filter fun r => r.1 ≠ id) ++ new.map fun r => (id, r)) id' =
      if id' = id then new else rowsOf rows id' := by
  rw [rowsOf, List.filter_append, List.map_append, List.filter_filter]
  by_cases h : id' = id
  · subst h
    have hnone : (rows.filter fun r => decide (r.1 = id') && decide (r.1 ≠ id')) = [] := by simp
    rw [if_pos rfl, hnone, List.filter_map, List.map_map]
    simp
  · have hsame : (rows.filter fun r => decide (r.1 = id') && decide (r.1 ≠ id)) = rows.filter fun r => r.1 = id' := by
      apply List.filter_congr
      intro r _
      by_cases hr : r.1 = id'
      · simp [hr, h]
      · simp [hr]
    have hnone : ((new.map fun r => (id, r)).filter fun r => r.1 = id') = [] := by
      rw [List.filter_map]
      simp [Ne.symm h]
    rw [if_neg h, hsame, hnone, List.map_nil, List.append_nil]
    rfl

theorem rowsOf_filter (id' : UInt64) :
    rowsOf (rows.filter fun r => r.1 ≠ id) id' = if id' = id then [] else rowsOf rows id' := by
  simpa using rowsOf_append rows id [] id'

end

/-- The rows of one network have distinct keys, as those of the table have. -/
theorem nodup_rowsOf {ρ κ : Type} {key : UInt64 × ρ → UInt64 × κ} (t : Table key) {part : ρ → κ}
    (hkey : ∀ r, key r = (r.1, part r.2)) (id : UInt64) : ((rowsOf t.rows id).map part).Nodup := by
  have hrows : (t.rows.filter fun r => r.1 = id).map key = ((rowsOf t.rows id).map part).map (Prod.mk id) := by
    rw [rowsOf, List.map_map, List.map_map]
    refine List.map_congr_left fun r hr => ?_
    rw [hkey]
    exact Prod.ext (of_decide_eq_true (List.mem_filter.mp hr).2) rfl
  have hdistinct : ((t.rows.filter fun r => r.1 = id).map key).Nodup := (t.filter fun r => r.1 = id).nodup
  rw [hrows] at hdistinct
  exact hdistinct.of_map _

/-- A call that wrote returns that it is done. -/
theorem run_done {σ : Type} {x : Attempt σ StorageError Unit} {s s' : σ} (h : x.run s = (.ok (), s')) :
    (do x; return StorageReply.done : Attempt σ StorageError StorageReply).run s = (.ok .done, s') :=
  Attempt.run_bind_ok h _

/-! ### SQLite -/

namespace SqliteStorage

def call : Backend SqliteStorage
  | .getNetwork id => .read fun s => .ok (.network (s.getNetwork id))
  | .createNetwork network => do createNetwork network; return .done
  | .updateNetwork network => do updateNetwork network; return .done
  | .deleteNetwork id => do deleteNetwork id; return .done
  | .listNetworks => .read fun s => .ok (.networks s.listNetworks)
  | .getMember id node => .read fun s => .ok (.member (s.getMember id node))
  | .upsertMember member => do upsertMember member; return .done
  | .deleteMember id node => do deleteMember id node; return .done
  | .listMembers id => .read fun s => .ok (.members (s.listMembers id))
  | .getIpPools id => .read fun s => .ok (.ipPools (s.getIpPools id))
  | .setIpPools id pools => do setIpPools id pools; return .done
  | .getRoutes id => .read fun s => .ok (.routes (s.getRoutes id))
  | .setRoutes id routes => do setRoutes id routes; return .done
  | .getAssignedIps id => .read fun s => .ok (.assignedIps (s.getAssignedIps id))

def view (s : SqliteStorage) : Store where
  network := s.getNetwork
  member := s.getMember
  ipPools := s.getIpPools
  routes := s.getRoutes

theorem createNetwork_meets {s : SqliteStorage} {network : NetworkRecord} (h : s.getNetwork network.id = none) :
    ∃ s', (createNetwork network).run s = (.ok (), s') ∧ s'.view = s.view.setNetwork network := by
  cases hinsert : s.networks.insert network with
  | none =>
    have hmem := Table.insert_eq_none.mp hinsert
    exact absurd hmem (Table.find?_eq_none.mp h)
  | some networks =>
    refine ⟨{ s with networks }, Attempt.run_write (by rw [hinsert]; rfl), ?_⟩
    ext1
    · funext id
      exact Table.find?_insert hinsert id
    · rfl
    · rfl
    · rfl

theorem view_updateNetwork {s : SqliteStorage} {network : NetworkRecord} (h : (s.getNetwork network.id).isSome) :
    { s with networks := s.networks.update network }.view = s.view.setNetwork network := by
  ext1
  · funext id
    show (s.networks.update network).find? id = _
    rw [Table.find?_update]
    by_cases hid : id = network.id
    · subst hid
      obtain ⟨n, hn⟩ := Option.isSome_iff_exists.mp h
      have hfind : s.networks.find? network.id = some n := hn
      simp [Store.setNetwork, hfind]
    · simp [Store.setNetwork, hid, view, getNetwork]
  · rfl
  · rfl
  · rfl

/-- The row of a network goes; of a cleared one there is nothing else. -/
theorem view_deleteNetwork {s : SqliteStorage} {id : UInt64} (h : s.view.Cleared id) :
    { s with networks := s.networks.filter fun n => n.id ≠ id }.view = s.view.clear id := by
  obtain ⟨hmembers, hpools, hroutes⟩ := h
  ext1
  · funext id'
    exact find?_deleteNetwork s.networks id id'
  · funext id' node
    by_cases hid : id' = id
    · subst hid
      exact (hmembers node).trans (if_pos rfl).symm
    · exact (if_neg hid).symm
  · funext id'
    by_cases hid : id' = id
    · subst hid
      exact hpools.trans (if_pos rfl).symm
    · exact (if_neg hid).symm
  · funext id'
    by_cases hid : id' = id
    · subst hid
      exact hroutes.trans (if_pos rfl).symm
    · exact (if_neg hid).symm

theorem view_upsertMember (s : SqliteStorage) (member : MemberRecord) :
    { s with members := s.members.replace member }.view = s.view.setMember member := by
  ext1
  · rfl
  · funext id node
    exact find?_upsertMember s.members id member node
  · rfl
  · rfl

theorem view_deleteMember (s : SqliteStorage) (id : UInt64) (node : ByteVec 5) :
    { s with members := s.members.filter fun m => m.key ≠ (id, node) }.view = s.view.next (.deleteMember id node) := by
  ext1
  · rfl
  · funext id' node'
    exact find?_deleteMember s.members id node id' node'
  · rfl
  · rfl

theorem nodup_getIpPools (s : SqliteStorage) (id : UInt64) : (s.getIpPools id).Nodup := by
  have hpools := @nodup_rowsOf _ _ _ s.ipPools (fun pool => pool) (fun _ => rfl) id
  rwa [List.map_id'] at hpools

theorem nodup_targets (s : SqliteStorage) (id : UInt64) : ((s.getRoutes id).map ManagedRoute.target).Nodup :=
  nodup_rowsOf s.routes (fun _ => rfl) id

theorem setIpPools_meets {s : SqliteStorage} {id : UInt64} {pools : List IpPool} (h : pools.Nodup) :
    ∃ s', (setIpPools id pools).run s = (.ok (), s') ∧ s'.view = s.view.next (.setIpPools id pools) := by
  have hset := setIpPools_eq id pools s
  rw [if_pos h] at hset
  obtain ⟨ipPools, hrun, hrows⟩ := hset
  refine ⟨_, hrun, ?_⟩
  ext1
  · rfl
  · rfl
  · funext id'
    show rowsOf ipPools.rows id' = _
    rw [hrows]
    exact rowsOf_append s.ipPools.rows id pools id'
  · rfl

theorem setRoutes_meets {s : SqliteStorage} {id : UInt64} {routes : List ManagedRoute}
    (h : (routes.map ManagedRoute.target).Nodup) :
    ∃ s', (setRoutes id routes).run s = (.ok (), s') ∧ s'.view = s.view.next (.setRoutes id routes) := by
  have hset := setRoutes_eq id routes s
  rw [if_pos h] at hset
  obtain ⟨table, hrun, hrows⟩ := hset
  refine ⟨_, hrun, ?_⟩
  ext1
  · rfl
  · rfl
  · rfl
  · funext id'
    show rowsOf table.rows id' = _
    rw [hrows]
    exact rowsOf_append s.routes.rows id routes id'

theorem refines : Refines call view fun _ => True := by
  refine ⟨fun s c _ hmeet => ?_⟩
  cases c with
  | getNetwork id => exact ⟨_, s, rfl, .getNetwork id, rfl, trivial⟩
  | getMember id node => exact ⟨_, s, rfl, .getMember id node, rfl, trivial⟩
  | getIpPools id => exact ⟨_, s, rfl, .getIpPools id, rfl, trivial⟩
  | getRoutes id => exact ⟨_, s, rfl, .getRoutes id, rfl, trivial⟩
  | listNetworks =>
    exact ⟨_, s, rfl, .listNetworks s.networks.nodup fun id => Table.mem_keys, rfl, trivial⟩
  | listMembers id =>
    exact ⟨_, s, rfl, .listMembers (listsNodes_membersOf s.members id fun _ => rfl), rfl, trivial⟩
  | getAssignedIps id =>
    have hmember : ∀ node, s.view.member id node = s.members.find? (id, node) := fun _ => rfl
    refine ⟨_, s, rfl, ?_, rfl, trivial⟩
    show s.view.Answers _ (.assignedIps ((Controller.membersOf s.members id).flatMap MemberRecord.ipAssignments))
    rw [← assignments_membersOf s.members id hmember]
    exact .getAssignedIps (listsNodes_membersOf s.members id hmember)
  | createNetwork network =>
    obtain ⟨s', hrun, hview⟩ := createNetwork_meets hmeet
    exact ⟨.done, s', run_done hrun, .createNetwork network, hview, trivial⟩
  | updateNetwork network =>
    exact ⟨.done, _, rfl, .updateNetwork network, view_updateNetwork hmeet, trivial⟩
  | deleteNetwork id => exact ⟨.done, _, rfl, .deleteNetwork id, view_deleteNetwork hmeet, trivial⟩
  | upsertMember member => exact ⟨.done, _, rfl, .upsertMember member, view_upsertMember s member, trivial⟩
  | deleteMember id node => exact ⟨.done, _, rfl, .deleteMember id node, view_deleteMember s id node, trivial⟩
  | setIpPools id pools =>
    obtain ⟨s', hrun, hview⟩ := setIpPools_meets hmeet
    exact ⟨.done, s', run_done hrun, .setIpPools id pools, hview, trivial⟩
  | setRoutes id routes =>
    obtain ⟨s', hrun, hview⟩ := setRoutes_meets hmeet
    exact ⟨.done, s', run_done hrun, .setRoutes id routes, hview, trivial⟩

end SqliteStorage

/-! ### In memory -/

namespace InMemoryStorage

def updateNetwork (s : InMemoryStorage) (network : NetworkRecord) : Except StorageError InMemoryStorage :=
  if (s.networks.find? fun n => n.id = network.id).isSome then
    .ok { s with networks := modifyFirst (fun n => n.id = network.id) (fun _ => network) s.networks }
  else .error .notFound

/-- The network goes with its members, pools and routes. -/
def deleteNetwork (s : InMemoryStorage) (id : UInt64) : InMemoryStorage where
  networks := s.networks.filter fun n => n.id ≠ id
  members := s.members.filter fun m => m.networkId ≠ id
  ipPools := s.ipPools.filter fun p => p.1 ≠ id
  routes := s.routes.filter fun r => r.1 ≠ id
  memberKeys := s.memberKeys.sublist (List.filter_sublist.map MemberRecord.key)

def deleteMember (s : InMemoryStorage) (id : UInt64) (node : ByteVec 5) : InMemoryStorage :=
  { s with
    members := s.members.filter fun m => ¬ (m.networkId = id ∧ m.nodeId = node)
    memberKeys := s.memberKeys.sublist (List.filter_sublist.map MemberRecord.key) }

def setIpPools (s : InMemoryStorage) (id : UInt64) (pools : List IpPool) : InMemoryStorage :=
  { s with ipPools := (s.ipPools.filter fun p => p.1 ≠ id) ++ pools.map fun pool => (id, pool) }

def setRoutes (s : InMemoryStorage) (id : UInt64) (routes : List ManagedRoute) : InMemoryStorage :=
  { s with routes := (s.routes.filter fun r => r.1 ≠ id) ++ routes.map fun route => (id, route) }

def call : Backend InMemoryStorage
  | .getNetwork id => .read fun s => .ok (.network (s.networks.find? fun n => n.id = id))
  | .createNetwork network => do .write fun s => .ok { s with networks := s.networks ++ [network] }; return .done
  | .updateNetwork network => do .write fun s => s.updateNetwork network; return .done
  | .deleteNetwork id => do .write fun s => .ok (s.deleteNetwork id); return .done
  | .listNetworks => .read fun s => .ok (.networks (s.networks.map NetworkRecord.id))
  | .getMember id node => .read fun s => .ok (.member (s.getMember id node))
  | .upsertMember member => do .write fun s => .ok (s.upsertMember member); return .done
  | .deleteMember id node => do .write fun s => .ok (s.deleteMember id node); return .done
  | .listMembers id =>
    .read fun s => .ok (.members ((s.members.filter fun m => m.networkId = id).map MemberRecord.nodeId))
  | .getIpPools id => .read fun s => .ok (.ipPools ((s.ipPools.filter fun p => p.1 = id).map Prod.snd))
  | .setIpPools id pools => do .write fun s => .ok (s.setIpPools id pools); return .done
  | .getRoutes id => .read fun s => .ok (.routes ((s.routes.filter fun r => r.1 = id).map Prod.snd))
  | .setRoutes id routes => do .write fun s => .ok (s.setRoutes id routes); return .done
  | .getAssignedIps id =>
    .read fun s => .ok (.assignedIps ((s.members.filter fun m => m.networkId = id).flatMap MemberRecord.ipAssignments))

/-- A network is created once. -/
def Distinct (s : InMemoryStorage) : Prop := (s.networks.map NetworkRecord.id).Nodup

/-- The networks and the members as tables. -/
def networkTable (s : InMemoryStorage) (hs : s.Distinct) : Table NetworkRecord.id := ⟨s.networks, hs⟩
def memberTable (s : InMemoryStorage) : Table MemberRecord.key := ⟨s.members, s.memberKeys⟩

theorem getMember_eq (s : InMemoryStorage) (id : UInt64) (node : ByteVec 5) :
    s.getMember id node = s.memberTable.find? (id, node) := by
  simp [getMember, memberTable, Table.find?, MemberRecord.key]

theorem createNetwork_meets {s : InMemoryStorage} {network : NetworkRecord} (hs : s.Distinct)
    (h : s.view.network network.id = none) :
    { s with networks := s.networks ++ [network] }.view = s.view.setNetwork network ∧
      ({ s with networks := s.networks ++ [network] } : InMemoryStorage).Distinct := by
  have hnew : network.id ∉ (s.networkTable hs).rows.map NetworkRecord.id := Table.find?_eq_none.mp h
  have hinsert := Table.insert_of_notMem hnew
  refine ⟨?_, Table.nodup_append_singleton hs hnew⟩
  ext1
  · funext id
    exact Table.find?_insert hinsert id
  · rfl
  · rfl
  · rfl

theorem updateNetwork_meets {s : InMemoryStorage} {network : NetworkRecord} (hs : s.Distinct)
    (h : (s.view.network network.id).isSome) :
    ∃ s', s.updateNetwork network = .ok s' ∧ s'.view = s.view.setNetwork network ∧ s'.Distinct := by
  have hkey : ∀ n, (s.networks.find? fun n => n.id = network.id) = some n → network.id = n.id := by
    intro n hn
    have hid : n.id = network.id := by simpa using List.find?_some hn
    exact hid.symm
  refine ⟨_, if_pos h, ?_, ?_⟩
  · ext1
    · funext id
      show (modifyFirst _ _ s.networks).find? _ = _
      by_cases hid : id = network.id
      · subst hid
        obtain ⟨n, hn⟩ := Option.isSome_iff_exists.mp h
        have hfind : (s.networks.find? fun n => n.id = network.id) = some n := hn
        rw [find?_modifyFirst (by simp), hfind]
        simp [Store.setNetwork]
      · rw [find?_modifyFirst_of_ne]
        · simp [Store.setNetwork, hid, view]
        · intro n hn
          have hn' : n.id = network.id := by simpa using hn
          simp [hn', Ne.symm hid]
    · rfl
    · rfl
    · rfl
  · show ((modifyFirst _ _ s.networks).map NetworkRecord.id).Nodup
    rw [map_modifyFirst _ hkey]
    exact hs

theorem view_deleteNetwork {s : InMemoryStorage} (hs : s.Distinct) (id : UInt64) :
    (s.deleteNetwork id).view = s.view.clear id := by
  ext1
  · funext id'
    exact find?_deleteNetwork (s.networkTable hs) id id'
  · funext id' node
    show (s.deleteNetwork id).getMember id' node = _
    rw [getMember_eq]
    refine (find?_deleteMembers s.memberTable id id' node).trans ?_
    rw [← getMember_eq]
    rfl
  · funext id'
    exact rowsOf_filter s.ipPools id id'
  · funext id'
    exact rowsOf_filter s.routes id id'

theorem view_deleteMember (s : InMemoryStorage) (id : UInt64) (node : ByteVec 5) :
    (s.deleteMember id node).view = s.view.next (.deleteMember id node) := by
  ext1
  · rfl
  · funext id' node'
    show (s.deleteMember id node).getMember id' node' = _
    rw [getMember_eq]
    have htable : (s.deleteMember id node).memberTable = s.memberTable.filter fun m => m.key ≠ (id, node) := by
      simp [deleteMember, memberTable, Table.filter, MemberRecord.key]
    rw [htable, find?_deleteMember, ← getMember_eq]
    rfl
  · rfl
  · rfl

theorem refines : Refines call view Distinct := by
  refine ⟨fun s c hs hmeet => ?_⟩
  have hmember : ∀ id node, s.view.member id node = s.memberTable.find? (id, node) := s.getMember_eq
  cases c with
  | getNetwork id => exact ⟨_, s, rfl, .getNetwork id, rfl, hs⟩
  | getMember id node => exact ⟨_, s, rfl, .getMember id node, rfl, hs⟩
  | getIpPools id => exact ⟨_, s, rfl, .getIpPools id, rfl, hs⟩
  | getRoutes id => exact ⟨_, s, rfl, .getRoutes id, rfl, hs⟩
  | listNetworks =>
    exact ⟨_, s, rfl, .listNetworks hs fun id => Table.mem_keys (t := s.networkTable hs), rfl, hs⟩
  | listMembers id =>
    exact ⟨_, s, rfl, .listMembers (listsNodes_membersOf s.memberTable id (hmember id)), rfl, hs⟩
  | getAssignedIps id =>
    refine ⟨_, s, rfl, ?_, rfl, hs⟩
    show s.view.Answers _ (.assignedIps ((membersOf s.memberTable id).flatMap MemberRecord.ipAssignments))
    rw [← assignments_membersOf s.memberTable id (hmember id)]
    exact .getAssignedIps (listsNodes_membersOf s.memberTable id (hmember id))
  | createNetwork network =>
    obtain ⟨hview, hs'⟩ := createNetwork_meets hs hmeet
    exact ⟨.done, _, rfl, .createNetwork network, hview, hs'⟩
  | updateNetwork network =>
    obtain ⟨s', hupdate, hview, hs'⟩ := updateNetwork_meets hs hmeet
    exact ⟨.done, s', run_done (Attempt.run_write hupdate), .updateNetwork network, hview, hs'⟩
  | deleteNetwork id =>
    exact ⟨.done, _, rfl, .deleteNetwork id, view_deleteNetwork hs id, hs.sublist (List.filter_sublist.map _)⟩
  | upsertMember member =>
    obtain ⟨s', hwrite, hview⟩ := memory_faithful.upsertMember s member
    obtain rfl := Except.ok.inj hwrite
    exact ⟨.done, _, rfl, .upsertMember member, hview, hs⟩
  | deleteMember id node =>
    exact ⟨.done, _, rfl, .deleteMember id node, view_deleteMember s id node, hs⟩
  | setIpPools id pools =>
    refine ⟨.done, _, rfl, .setIpPools id pools, ?_, hs⟩
    ext1
    · rfl
    · rfl
    · funext id'
      exact rowsOf_append s.ipPools id pools id'
    · rfl
  | setRoutes id routes =>
    refine ⟨.done, _, rfl, .setRoutes id routes, ?_, hs⟩
    ext1
    · rfl
    · rfl
    · rfl
    · funext id'
      exact rowsOf_append s.routes id routes id'

end InMemoryStorage

/-! ### In files -/

/-- One file a network and a member, and one file a network for all its pools and for all
its routes. -/
structure FilesystemStorage where
  networks : Table NetworkRecord.id
  members : Table MemberRecord.key
  pools : Table (Prod.fst : UInt64 × List IpPool → UInt64)
  routes : Table (Prod.fst : UInt64 × List ManagedRoute → UInt64)

namespace FilesystemStorage

def new : FilesystemStorage := ⟨.empty, .empty, .empty, .empty⟩

def createNetwork (s : FilesystemStorage) (network : NetworkRecord) : FilesystemStorage :=
  { s with networks := s.networks.replace network }

/-- A file is written whether it is there or not. -/
def updateNetwork (s : FilesystemStorage) (network : NetworkRecord) : FilesystemStorage := s.createNetwork network

def deleteNetwork (s : FilesystemStorage) (id : UInt64) : FilesystemStorage where
  networks := s.networks.filter fun n => n.id ≠ id
  members := s.members.filter fun m => m.networkId ≠ id
  pools := s.pools.filter fun p => p.1 ≠ id
  routes := s.routes.filter fun r => r.1 ≠ id

def getMember (s : FilesystemStorage) (id : UInt64) (node : ByteVec 5) : Option MemberRecord :=
  s.members.find? (id, node)

def upsertMember (s : FilesystemStorage) (member : MemberRecord) : FilesystemStorage :=
  { s with members := s.members.replace member }

def deleteMember (s : FilesystemStorage) (id : UInt64) (node : ByteVec 5) : FilesystemStorage :=
  { s with members := s.members.filter fun m => m.key ≠ (id, node) }

def listMembers (s : FilesystemStorage) (id : UInt64) : List (ByteVec 5) :=
  (membersOf s.members id).map MemberRecord.nodeId

/-- The list a network's file holds, or none. -/
def listIn {ρ : Type} (files : Table (Prod.fst : UInt64 × List ρ → UInt64)) (id : UInt64) : List ρ :=
  match files.find? id with
  | some file => file.2
  | none => []

def getIpPools (s : FilesystemStorage) (id : UInt64) : List IpPool := listIn s.pools id

def setIpPools (s : FilesystemStorage) (id : UInt64) (pools : List IpPool) : FilesystemStorage :=
  { s with pools := s.pools.replace (id, pools) }

/-- The members are listed and then read one by one. -/
def getAssignedIps (s : FilesystemStorage) (id : UInt64) : List Text :=
  (s.listMembers id).flatMap fun node =>
    match s.getMember id node with
    | some member => member.ipAssignments
    | none => []

def getRoutes (s : FilesystemStorage) (id : UInt64) : List ManagedRoute := listIn s.routes id

def setRoutes (s : FilesystemStorage) (id : UInt64) (routes : List ManagedRoute) : FilesystemStorage :=
  { s with routes := s.routes.replace (id, routes) }

def call : Backend FilesystemStorage
  | .getNetwork id => .read fun s => .ok (.network (s.networks.find? id))
  | .createNetwork network => do .write fun s => .ok (s.createNetwork network); return .done
  | .updateNetwork network => do .write fun s => .ok (s.updateNetwork network); return .done
  | .deleteNetwork id => do .write fun s => .ok (s.deleteNetwork id); return .done
  | .listNetworks => .read fun s => .ok (.networks (s.networks.rows.map NetworkRecord.id))
  | .getMember id node => .read fun s => .ok (.member (s.getMember id node))
  | .upsertMember member => do .write fun s => .ok (s.upsertMember member); return .done
  | .deleteMember id node => do .write fun s => .ok (s.deleteMember id node); return .done
  | .listMembers id => .read fun s => .ok (.members (s.listMembers id))
  | .getIpPools id => .read fun s => .ok (.ipPools (s.getIpPools id))
  | .setIpPools id pools => do .write fun s => .ok (s.setIpPools id pools); return .done
  | .getRoutes id => .read fun s => .ok (.routes (s.getRoutes id))
  | .setRoutes id routes => do .write fun s => .ok (s.setRoutes id routes); return .done
  | .getAssignedIps id => .read fun s => .ok (.assignedIps (s.getAssignedIps id))

def view (s : FilesystemStorage) : Store where
  network := s.networks.find?
  member := s.getMember
  ipPools := s.getIpPools
  routes := s.getRoutes

section
variable {ρ : Type} (files : Table (Prod.fst : UInt64 × List ρ → UInt64)) (id id' : UInt64)

theorem listIn_replace (rows : List ρ) :
    listIn (files.replace (id, rows)) id' = if id' = id then rows else listIn files id' := by
  rw [listIn, Table.find?_replace]
  by_cases hid : id' = id
  · simp [hid]
  · simp [hid, listIn]

theorem listIn_filter :
    listIn (files.filter fun f => f.1 ≠ id) id' = if id' = id then [] else listIn files id' := by
  rw [listIn, Table.find?_filter files (fun k => decide (k ≠ id))]
  by_cases hid : id' = id
  · simp [hid]
  · simp [hid, listIn]

end

theorem view_createNetwork (s : FilesystemStorage) (network : NetworkRecord) :
    (s.createNetwork network).view = s.view.setNetwork network := by
  ext1
  · funext id
    exact Table.find?_replace s.networks network id
  · rfl
  · rfl
  · rfl

theorem view_deleteNetwork (s : FilesystemStorage) (id : UInt64) : (s.deleteNetwork id).view = s.view.clear id := by
  ext1
  · funext id'
    exact find?_deleteNetwork s.networks id id'
  · funext id' node
    exact find?_deleteMembers s.members id id' node
  · funext id'
    exact listIn_filter s.pools id id'
  · funext id'
    exact listIn_filter s.routes id id'

theorem view_upsertMember (s : FilesystemStorage) (member : MemberRecord) :
    (s.upsertMember member).view = s.view.setMember member := by
  ext1
  · rfl
  · funext id node
    exact find?_upsertMember s.members id member node
  · rfl
  · rfl

theorem view_deleteMember (s : FilesystemStorage) (id : UInt64) (node : ByteVec 5) :
    (s.deleteMember id node).view = s.view.next (.deleteMember id node) := by
  ext1
  · rfl
  · funext id' node'
    exact find?_deleteMember s.members id node id' node'
  · rfl
  · rfl

theorem getAssignedIps_eq (s : FilesystemStorage) (id : UInt64) :
    s.getAssignedIps id = (s.listMembers id).flatMap (s.view.assignmentsOf id) := by
  apply List.flatMap_congr
  intro node _
  simp only [Store.assignmentsOf, view]
  cases s.getMember id node with
  | some member => rfl
  | none => rfl

theorem refines : Refines call view fun _ => True := by
  refine ⟨fun s c _ _ => ?_⟩
  cases c with
  | getNetwork id => exact ⟨_, s, rfl, .getNetwork id, rfl, trivial⟩
  | getMember id node => exact ⟨_, s, rfl, .getMember id node, rfl, trivial⟩
  | getIpPools id => exact ⟨_, s, rfl, .getIpPools id, rfl, trivial⟩
  | getRoutes id => exact ⟨_, s, rfl, .getRoutes id, rfl, trivial⟩
  | listNetworks =>
    exact ⟨_, s, rfl, .listNetworks s.networks.nodup fun id => Table.mem_keys, rfl, trivial⟩
  | listMembers id =>
    exact ⟨_, s, rfl, .listMembers (listsNodes_membersOf s.members id fun _ => rfl), rfl, trivial⟩
  | getAssignedIps id =>
    refine ⟨_, s, rfl, ?_, rfl, trivial⟩
    rw [getAssignedIps_eq]
    exact .getAssignedIps (listsNodes_membersOf s.members id fun _ => rfl)
  | createNetwork network | updateNetwork network =>
    exact ⟨.done, _, rfl, by constructor, view_createNetwork s network, trivial⟩
  | deleteNetwork id => exact ⟨.done, _, rfl, .deleteNetwork id, view_deleteNetwork s id, trivial⟩
  | upsertMember member => exact ⟨.done, _, rfl, .upsertMember member, view_upsertMember s member, trivial⟩
  | deleteMember id node => exact ⟨.done, _, rfl, .deleteMember id node, view_deleteMember s id node, trivial⟩
  | setIpPools id pools =>
    refine ⟨.done, _, rfl, .setIpPools id pools, ?_, trivial⟩
    ext1
    · rfl
    · rfl
    · funext id'
      exact listIn_replace s.pools id id' pools
    · rfl
  | setRoutes id routes =>
    refine ⟨.done, _, rfl, .setRoutes id routes, ?_, trivial⟩
    ext1
    · rfl
    · rfl
    · rfl
    · funext id'
      exact listIn_replace s.routes id id' routes

end FilesystemStorage

end ManyTier.Controller
