import ManyTier.Controller.Sqlite

/-! What every storage backend is for.

A backend answers calls. What it keeps is a `Store`: every record under its own key. `next`
says what a call leaves, `Answers` what it may reply, lists in any order. A backend that
`Refines` the store on the calls that meet their condition gives, call by call, the results
of any other (`Refines.results_same`). -/
namespace ManyTier.Controller

inductive Call where
  | getNetwork (id : UInt64)
  | createNetwork (network : NetworkRecord)
  | updateNetwork (network : NetworkRecord)
  | deleteNetwork (id : UInt64)
  | listNetworks
  | getMember (id : UInt64) (node : ByteVec 5)
  | upsertMember (member : MemberRecord)
  | deleteMember (id : UInt64) (node : ByteVec 5)
  | listMembers (id : UInt64)
  | getIpPools (id : UInt64)
  | setIpPools (id : UInt64) (pools : List IpPool)
  | getRoutes (id : UInt64)
  | setRoutes (id : UInt64) (routes : List ManagedRoute)
  | getAssignedIps (id : UInt64)

inductive StorageReply where
  | done
  | network (network : Option NetworkRecord)
  | networks (ids : List UInt64)
  | member (member : Option MemberRecord)
  | members (nodes : List (ByteVec 5))
  | ipPools (pools : List IpPool)
  | routes (routes : List ManagedRoute)
  | assignedIps (ips : List Text)
  deriving DecidableEq

/-- The same reply, lists in any order. -/
inductive StorageReply.Same : StorageReply → StorageReply → Prop where
  | rfl (r : StorageReply) : Same r r
  | networks {a b : List UInt64} (h : a.Perm b) : Same (.networks a) (.networks b)
  | members {a b : List (ByteVec 5)} (h : a.Perm b) : Same (.members a) (.members b)
  | ipPools {a b : List IpPool} (h : a.Perm b) : Same (.ipPools a) (.ipPools b)
  | routes {a b : List ManagedRoute} (h : a.Perm b) : Same (.routes a) (.routes b)
  | assignedIps {a b : List Text} (h : a.Perm b) : Same (.assignedIps a) (.assignedIps b)

/-- Both calls failed, or both returned the same. -/
def SameResult : Except StorageError StorageReply → Except StorageError StorageReply → Prop
  | .ok a, .ok b => StorageReply.Same a b
  | .error _, .error _ => True
  | _, _ => False

abbrev Backend (σ : Type) := Call → Attempt σ StorageError StorageReply

/-! ### The store -/

namespace Store

def empty : Store where
  network := fun _ => none
  member := fun _ _ => none
  ipPools := fun _ => []
  routes := fun _ => []

def setNetwork (st : Store) (network : NetworkRecord) : Store :=
  { st with network := fun id => if id = network.id then some network else st.network id }

/-- Nothing of a network is left. -/
def clear (st : Store) (id : UInt64) : Store where
  network := fun id' => if id' = id then none else st.network id'
  member := fun id' node => if id' = id then none else st.member id' node
  ipPools := fun id' => if id' = id then [] else st.ipPools id'
  routes := fun id' => if id' = id then [] else st.routes id'

/-- What a call leaves. -/
def next (st : Store) : Call → Store
  | .createNetwork network | .updateNetwork network => st.setNetwork network
  | .deleteNetwork id => st.clear id
  | .upsertMember member => st.setMember member
  | .deleteMember id node =>
    { st with member := fun id' node' => if id' = id ∧ node' = node then none else st.member id' node' }
  | .setIpPools id pools => { st with ipPools := fun id' => if id' = id then pools else st.ipPools id' }
  | .setRoutes id routes => { st with routes := fun id' => if id' = id then routes else st.routes id' }
  | _ => st

/-- Pools that are there put there again. -/
theorem next_setIpPools_self (st : Store) (id : UInt64) : st.next (.setIpPools id (st.ipPools id)) = st := by
  ext1
  · rfl
  · rfl
  · funext id'
    show (if id' = id then st.ipPools id else st.ipPools id') = _
    split
    · rename_i hid
      rw [hid]
    · rfl
  · rfl

theorem next_setRoutes_self (st : Store) (id : UInt64) : st.next (.setRoutes id (st.routes id)) = st := by
  ext1
  · rfl
  · rfl
  · rfl
  · funext id'
    show (if id' = id then st.routes id else st.routes id') = _
    split
    · rename_i hid
      rw [hid]
    · rfl

/-- A list of the members of a network. -/
def ListsNodes (st : Store) (id : UInt64) (nodes : List (ByteVec 5)) : Prop :=
  nodes.Nodup ∧ ∀ node, node ∈ nodes ↔ (st.member id node).isSome

/-- There is nothing of a network but its own record. -/
def Cleared (st : Store) (id : UInt64) : Prop :=
  (∀ node, st.member id node = none) ∧ st.ipPools id = [] ∧ st.routes id = []

def assignmentsOf (st : Store) (id : UInt64) (node : ByteVec 5) : List Text :=
  ((st.member id node).map MemberRecord.ipAssignments).getD []

/-- What a call may reply. -/
inductive Answers (st : Store) : Call → StorageReply → Prop where
  | getNetwork (id : UInt64) : Answers st (.getNetwork id) (.network (st.network id))
  | createNetwork (network : NetworkRecord) : Answers st (.createNetwork network) .done
  | updateNetwork (network : NetworkRecord) : Answers st (.updateNetwork network) .done
  | deleteNetwork (id : UInt64) : Answers st (.deleteNetwork id) .done
  | listNetworks {ids : List UInt64} (hnodup : ids.Nodup) (hmem : ∀ id, id ∈ ids ↔ (st.network id).isSome) :
    Answers st .listNetworks (.networks ids)
  | getMember (id : UInt64) (node : ByteVec 5) : Answers st (.getMember id node) (.member (st.member id node))
  | upsertMember (member : MemberRecord) : Answers st (.upsertMember member) .done
  | deleteMember (id : UInt64) (node : ByteVec 5) : Answers st (.deleteMember id node) .done
  | listMembers {id : UInt64} {nodes : List (ByteVec 5)} (h : st.ListsNodes id nodes) :
    Answers st (.listMembers id) (.members nodes)
  | getIpPools (id : UInt64) : Answers st (.getIpPools id) (.ipPools (st.ipPools id))
  | setIpPools (id : UInt64) (pools : List IpPool) : Answers st (.setIpPools id pools) .done
  | getRoutes (id : UInt64) : Answers st (.getRoutes id) (.routes (st.routes id))
  | setRoutes (id : UInt64) (routes : List ManagedRoute) : Answers st (.setRoutes id routes) .done
  | getAssignedIps {id : UInt64} {nodes : List (ByteVec 5)} (h : st.ListsNodes id nodes) :
    Answers st (.getAssignedIps id) (.assignedIps (nodes.flatMap (st.assignmentsOf id)))

theorem ListsNodes.perm {st : Store} {id : UInt64} {nodes nodes' : List (ByteVec 5)} (h : st.ListsNodes id nodes)
    (h' : st.ListsNodes id nodes') : nodes.Perm nodes' :=
  (List.perm_ext_iff_of_nodup h.1 h'.1).mpr fun node => (h.2 node).trans (h'.2 node).symm

/-- Two replies to one call are the same. -/
theorem Answers.same {st : Store} {c : Call} {r r' : StorageReply} (h : st.Answers c r) (h' : st.Answers c r') :
    StorageReply.Same r r' := by
  cases h with
  | listNetworks hnodup hmem =>
    cases h' with
    | listNetworks hnodup' hmem' =>
      exact .networks ((List.perm_ext_iff_of_nodup hnodup hnodup').mpr fun id => (hmem id).trans (hmem' id).symm)
  | listMembers hlists =>
    cases h' with
    | listMembers hlists' => exact .members (hlists.perm hlists')
  | getAssignedIps hlists =>
    cases h' with
    | getAssignedIps hlists' => exact .assignedIps ((hlists.perm hlists').flatMap_right _)
  | _ =>
    cases h'
    exact .rfl _

end Store

/-- What a call asks of the records there are: a new network is new, an updated one is
there, a deleted one has nothing left, and no pool and no target is given twice. -/
def Call.Meets (st : Store) : Call → Prop
  | .createNetwork network => st.network network.id = none
  | .updateNetwork network => (st.network network.id).isSome
  | .deleteNetwork id => st.Cleared id
  | .setIpPools _ pools => pools.Nodup
  | .setRoutes _ routes => (routes.map ManagedRoute.target).Nodup
  | _ => True

/-- Every call of a run meets its condition where it is made. -/
def AllMeet : Store → List Call → Prop
  | _, [] => True
  | st, c :: rest => c.Meets st ∧ AllMeet (st.next c) rest

/-! ### Backends -/

section
variable {σ τ : Type}

/-- The results of a run of calls, and the state behind them. -/
def results (backend : Backend σ) : σ → List Call → List (Except StorageError StorageReply)
  | _, [] => []
  | s, c :: rest => ((backend c).run s).1 :: results backend ((backend c).run s).2 rest

def stateAfter (backend : Backend σ) (s : σ) (calls : List Call) : σ :=
  calls.foldl (fun s c => ((backend c).run s).2) s

/-- From states that keep the invariant `Inv`, a call that meets its condition returns an
answer of the store and leaves what the store says. -/
structure Refines (backend : Backend σ) (view : σ → Store) (Inv : σ → Prop) : Prop where
  step : ∀ s c, Inv s → c.Meets (view s) → ∃ r s', (backend c).run s = (.ok r, s') ∧
    (view s).Answers c r ∧ view s' = (view s).next c ∧ Inv s'

variable {b : Backend σ} {b' : Backend τ} {view : σ → Store} {view' : τ → Store} {Inv : σ → Prop} {Inv' : τ → Prop}

/-- Two backends give the same results in every run whose calls meet their conditions. -/
theorem Refines.results_same (h : Refines b view Inv) (h' : Refines b' view' Inv') {s : σ} {t : τ} (hs : Inv s)
    (ht : Inv' t) (hview : view' t = view s) {calls : List Call} (hmeet : AllMeet (view s) calls) :
    List.Forall₂ SameResult (results b s calls) (results b' t calls) := by
  induction calls generalizing s t with
  | nil => exact .nil
  | cons c rest ih =>
    obtain ⟨hc, hrest⟩ := hmeet
    obtain ⟨r, s', hrun, hanswer, hnext, hs'⟩ := h.step s c hs hc
    obtain ⟨r', t', hrun', hanswer', hnext', ht'⟩ := h'.step t c ht (by rw [hview]; exact hc)
    rw [hview] at hanswer' hnext'
    simp only [results, hrun, hrun']
    refine .cons (hanswer.same hanswer') (ih hs' ht' (by rw [hnext, hnext']) ?_)
    rw [hnext]
    exact hrest

/-- The state behind a run is what the store says. -/
theorem Refines.view_stateAfter (h : Refines b view Inv) {s : σ} (hs : Inv s) {calls : List Call}
    (hmeet : AllMeet (view s) calls) :
    view (stateAfter b s calls) = calls.foldl Store.next (view s) ∧ Inv (stateAfter b s calls) := by
  induction calls generalizing s with
  | nil => exact ⟨rfl, hs⟩
  | cons c rest ih =>
    obtain ⟨hc, hrest⟩ := hmeet
    obtain ⟨r, s', hrun, -, hnext, hs'⟩ := h.step s c hs hc
    have hstate : stateAfter b s (c :: rest) = stateAfter b s' rest := by
      simp only [stateAfter, List.foldl_cons, hrun]
    rw [hstate, List.foldl_cons, ← hnext]
    exact ih hs' (by rw [hnext]; exact hrest)

end

/-! ### Networks and members in tables -/

/-- The network's own row goes. -/
theorem find?_deleteNetwork (networks : Table NetworkRecord.id) (id id' : UInt64) :
    (networks.filter fun n => n.id ≠ id).find? id' = if id' = id then none else networks.find? id' := by
  rw [Table.find?_filter networks (fun k => decide (k ≠ id))]
  by_cases hid : id' = id
  · simp [hid]
  · simp [hid]

section
variable (members : Table MemberRecord.key) (id : UInt64)

def membersOf : List MemberRecord := members.rows.filter fun m => m.networkId = id

theorem listsNodes_membersOf {st : Store} (hst : ∀ node, st.member id node = members.find? (id, node)) :
    st.ListsNodes id ((membersOf members id).map MemberRecord.nodeId) := by
  constructor
  · refine List.Nodup.map_on ?_ (members.nodup.of_map.filter _)
    intro x hx y hy hnode
    obtain ⟨hx, hxid⟩ := List.mem_filter.mp hx
    obtain ⟨hy, hyid⟩ := List.mem_filter.mp hy
    have hid : x.networkId = y.networkId := (of_decide_eq_true hxid).trans (of_decide_eq_true hyid).symm
    exact List.inj_on_of_nodup_map members.nodup hx hy (Prod.ext hid hnode)
  · intro node
    rw [hst, ← Table.mem_keys]
    constructor
    · intro hnode
      obtain ⟨m, hm, rfl⟩ := List.mem_map.mp hnode
      obtain ⟨hm, hid⟩ := List.mem_filter.mp hm
      exact List.mem_map.mpr ⟨m, hm, Prod.ext (of_decide_eq_true hid) rfl⟩
    · intro hkey
      obtain ⟨m, hm, hkey⟩ := List.mem_map.mp hkey
      obtain ⟨hid, hnode⟩ := Prod.mk.inj hkey
      exact List.mem_map.mpr ⟨m, List.mem_filter.mpr ⟨hm, decide_eq_true hid⟩, hnode⟩

theorem find?_upsertMember (m : MemberRecord) (node : ByteVec 5) :
    (members.replace m).find? (id, node) =
      if id = m.networkId ∧ node = m.nodeId then some m else members.find? (id, node) := by
  rw [Table.find?_replace]
  simp [MemberRecord.key]

theorem find?_deleteMember (node : ByteVec 5) (id' : UInt64) (node' : ByteVec 5) :
    (members.filter fun m => m.key ≠ (id, node)).find? (id', node') =
      if id' = id ∧ node' = node then none else members.find? (id', node') := by
  rw [Table.find?_filter members (fun k => decide (k ≠ (id, node)))]
  by_cases hkey : id' = id ∧ node' = node
  · simp [hkey]
  · simp [hkey]

/-- All the members of a network go. -/
theorem find?_deleteMembers (id' : UInt64) (node : ByteVec 5) :
    (members.filter fun m => m.networkId ≠ id).find? (id', node) =
      if id' = id then none else members.find? (id', node) := by
  refine (Table.find?_filter members (fun k => decide (k.1 ≠ id)) (id', node)).trans ?_
  by_cases hid : id' = id
  · simp [hid]
  · simp [hid]

theorem assignments_membersOf {st : Store} (hst : ∀ node, st.member id node = members.find? (id, node)) :
    ((membersOf members id).map MemberRecord.nodeId).flatMap (st.assignmentsOf id) =
      (membersOf members id).flatMap MemberRecord.ipAssignments := by
  rw [List.flatMap_map]
  apply List.flatMap_congr
  intro m hm
  obtain ⟨hm, hid⟩ := List.mem_filter.mp hm
  have hfind : members.find? (id, m.nodeId) = some m :=
    Table.find?_eq_some.mpr ⟨hm, Prod.ext (of_decide_eq_true hid) rfl⟩
  simp only [Store.assignmentsOf, hst, hfind, Option.map_some, Option.getD_some]

end

end ManyTier.Controller
