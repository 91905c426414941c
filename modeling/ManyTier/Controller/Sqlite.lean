import ManyTier.Controller.Storage
import ManyTier.Lib.Attempt
import ManyTier.Lib.Table

/-! The controller's records in SQLite.

Each table is a list of rows with its declared primary key. A statement outside a
transaction stays when a later one fails: pools are replaced by a deletion and one
insertion a pool, so a pool given twice leaves the pools before it and an error
(`setIpPools_eq`). Routes are replaced in a transaction (`setRoutes_eq`). -/
namespace ManyTier.Controller

/-- Why a call failed: a row with the same key, or no record to change. -/
inductive StorageError where
  | constraint
  | notFound
  deriving DecidableEq

/-- A pool is its own key; of a route only the target is. -/
def poolKey (p : UInt64 × IpPool) : UInt64 × IpPool := p
def routeKey (r : UInt64 × ManagedRoute) : UInt64 × Text := (r.1, r.2.target)

structure SqliteStorage where
  networks : Table NetworkRecord.id
  members : Table MemberRecord.key
  ipPools : Table poolKey
  routes : Table routeKey

namespace SqliteStorage

def new : SqliteStorage := ⟨.empty, .empty, .empty, .empty⟩

/-! ### Statements -/

def getNetwork (s : SqliteStorage) (id : UInt64) : Option NetworkRecord := s.networks.find? id

/-- The table an insertion leaves, or a violation of its key. -/
def checked {ρ κ : Type} {key : ρ → κ} (t : Option (Table key)) : Except StorageError (Table key) :=
  match t with
  | some t => .ok t
  | none => .error .constraint

def createNetwork (network : NetworkRecord) : Attempt SqliteStorage StorageError Unit := .write fun s => do
  let networks ← checked (s.networks.insert network)
  return { s with networks }

def updateNetwork (network : NetworkRecord) : Attempt SqliteStorage StorageError Unit :=
  .write fun s => .ok { s with networks := s.networks.update network }

/-- Only the network's own row goes. -/
def deleteNetwork (id : UInt64) : Attempt SqliteStorage StorageError Unit :=
  .write fun s => .ok { s with networks := s.networks.filter fun n => n.id ≠ id }

def listNetworks (s : SqliteStorage) : List UInt64 := s.networks.rows.map NetworkRecord.id

def getMember (s : SqliteStorage) (id : UInt64) (node : ByteVec 5) : Option MemberRecord := s.members.find? (id, node)

def upsertMember (member : MemberRecord) : Attempt SqliteStorage StorageError Unit :=
  .write fun s => .ok { s with members := s.members.replace member }

def deleteMember (id : UInt64) (node : ByteVec 5) : Attempt SqliteStorage StorageError Unit :=
  .write fun s => .ok { s with members := s.members.filter fun m => m.key ≠ (id, node) }

def membersOf (s : SqliteStorage) (id : UInt64) : List MemberRecord := s.members.rows.filter fun m => m.networkId = id

def listMembers (s : SqliteStorage) (id : UInt64) : List (ByteVec 5) := (s.membersOf id).map MemberRecord.nodeId

def getIpPools (s : SqliteStorage) (id : UInt64) : List IpPool := (s.ipPools.rows.filter fun p => p.1 = id).map Prod.snd

/-- One insertion a pool. -/
def insertPools (id : UInt64) : List IpPool → Attempt SqliteStorage StorageError Unit
  | [] => pure ()
  | pool :: rest => do
    .write fun s => do
      let ipPools ← checked (s.ipPools.insert (id, pool))
      return { s with ipPools }
    insertPools id rest

def setIpPools (id : UInt64) (pools : List IpPool) : Attempt SqliteStorage StorageError Unit := do
  .write fun s => .ok { s with ipPools := s.ipPools.filter fun p => p.1 ≠ id }
  insertPools id pools

def getAssignedIps (s : SqliteStorage) (id : UInt64) : List Text := (s.membersOf id).flatMap MemberRecord.ipAssignments

def getRoutes (s : SqliteStorage) (id : UInt64) : List ManagedRoute := (s.routes.rows.filter fun r => r.1 = id).map Prod.snd

/-- The deletion and the insertions in one transaction. -/
def setRoutes (id : UInt64) (routes : List ManagedRoute) : Attempt SqliteStorage StorageError Unit := .write fun s => do
  let routes ← checked ((s.routes.filter fun r => r.1 ≠ id).insertAll (routes.map fun route => (id, route)))
  return { s with routes }

/-! ### What the calls leave -/

/-- Pools put behind those that are there. -/
theorem insertPools_eq (id : UInt64) (pools : List IpPool) (s : SqliteStorage) :
    match s.ipPools.insertAll (pools.map fun pool => (id, pool)) with
    | some ipPools => (insertPools id pools).run s = (.ok (), { s with ipPools })
    | none => ∃ ipPools, (insertPools id pools).run s = (.error .constraint, { s with ipPools }) := by
  induction pools generalizing s with
  | nil => rfl
  | cons pool rest ih =>
    rw [List.map_cons, Table.insertAll]
    cases hinsert : s.ipPools.insert (id, pool) with
    | none =>
      refine ⟨s.ipPools, Attempt.run_bind_error (Attempt.run_write_error ?_) _⟩
      rw [hinsert]
      rfl
    | some ipPools =>
      have hwrite : (Attempt.write fun s : SqliteStorage => do
          let ipPools ← checked (s.ipPools.insert (id, pool))
          return { s with ipPools } : Attempt SqliteStorage StorageError Unit).run s = (.ok (), { s with ipPools }) := by
        apply Attempt.run_write
        rw [hinsert]
        rfl
      have hrest := ih { s with ipPools }
      rw [Option.bind_some]
      rw [insertPools, Attempt.run_bind_ok hwrite]
      exact hrest

/-- The rows of other networks, with those of one behind them, have distinct keys exactly
if those of the one have. -/
theorem insertAll_filter_isSome {ρ κ : Type} [DecidableEq κ] (key : UInt64 × ρ → κ) (network : κ → UInt64)
    (hkey : ∀ r, network (key r) = r.1) (t : Table key) (id : UInt64) (rows : List ρ) :
    ((t.filter fun r => r.1 ≠ id).insertAll (rows.map fun r => (id, r))).isSome ↔
      (rows.map fun r => key (id, r)).Nodup := by
  rw [Table.insertAll_isSome, List.map_append, List.map_map, List.nodup_append']
  constructor
  · rintro ⟨-, h, -⟩
    exact h
  · intro h
    refine ⟨(t.filter fun r => r.1 ≠ id).nodup, h, ?_⟩
    intro k hk hk'
    obtain ⟨r, hr, rfl⟩ := List.mem_map.mp hk
    obtain ⟨r', hr', heq⟩ := List.mem_map.mp hk'
    have hnetwork : r.1 = id := by
      rw [← hkey r, ← heq]
      exact hkey (id, r')
    have hne : r.1 ≠ id := by simpa using (List.mem_filter.mp hr).2
    exact hne hnetwork

theorem setIpPools_eq (id : UInt64) (pools : List IpPool) (s : SqliteStorage) :
    if pools.Nodup then
      ∃ ipPools : Table poolKey, (setIpPools id pools).run s = (.ok (), { s with ipPools }) ∧
        ipPools.rows = (s.ipPools.rows.filter fun p => p.1 ≠ id) ++ pools.map fun pool => (id, pool)
    else ∃ ipPools, (setIpPools id pools).run s = (.error .constraint, { s with ipPools }) := by
  have hdistinct := insertAll_filter_isSome poolKey Prod.fst (fun _ => rfl) s.ipPools id pools
  have hpools : (pools.map fun pool => poolKey (id, pool)).Nodup ↔ pools.Nodup :=
    List.nodup_map_iff fun _ _ h => (Prod.mk.inj h).2
  rw [hpools] at hdistinct
  have hrun : (setIpPools id pools).run s =
      (insertPools id pools).run { s with ipPools := s.ipPools.filter fun p => p.1 ≠ id } := rfl
  have hinsert := insertPools_eq id pools { s with ipPools := s.ipPools.filter fun p => p.1 ≠ id }
  split at hinsert
  · rename_i ipPools hsome
    rw [if_pos (hdistinct.mp (by rw [hsome]; rfl)), hrun]
    exact ⟨ipPools, hinsert, Table.rows_insertAll hsome⟩
  · rename_i hnone
    rw [hnone] at hdistinct
    rw [if_neg fun h => Bool.false_ne_true (hdistinct.mpr h), hrun]
    exact hinsert

theorem setRoutes_eq (id : UInt64) (routes : List ManagedRoute) (s : SqliteStorage) :
    if (routes.map ManagedRoute.target).Nodup then
      ∃ table : Table routeKey, (setRoutes id routes).run s = (.ok (), { s with routes := table }) ∧
        table.rows = (s.routes.rows.filter fun r => r.1 ≠ id) ++ routes.map fun route => (id, route)
    else (setRoutes id routes).run s = (.error .constraint, s) := by
  have hdistinct := insertAll_filter_isSome routeKey Prod.fst (fun _ => rfl) s.routes id routes
  have hroutes : (routes.map fun route => routeKey (id, route)).Nodup ↔ (routes.map ManagedRoute.target).Nodup := by
    have hsplit : (routes.map fun route => routeKey (id, route)) =
        (routes.map ManagedRoute.target).map fun target => (id, target) := by
      rw [List.map_map]
      rfl
    rw [hsplit]
    exact List.nodup_map_iff fun _ _ h => (Prod.mk.inj h).2
  rw [hroutes] at hdistinct
  cases hinsert : (s.routes.filter fun r => r.1 ≠ id).insertAll (routes.map fun route => (id, route)) with
  | some table =>
    rw [if_pos (hdistinct.mp (by rw [hinsert]; rfl))]
    refine ⟨table, Attempt.run_write ?_, Table.rows_insertAll hinsert⟩
    rw [hinsert]
    rfl
  | none =>
    rw [hinsert] at hdistinct
    rw [if_neg fun h => Bool.false_ne_true (hdistinct.mpr h)]
    apply Attempt.run_write_error
    rw [hinsert]
    rfl

end SqliteStorage

end ManyTier.Controller
