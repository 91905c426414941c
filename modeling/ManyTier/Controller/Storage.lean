import ManyTier.Controller.Records
import ManyTier.Lib.Lists

/-! What a controller keeps its records in.

A storage is a parameter: `Storage` says which calls there are, and a call may fail with
a message. `Store` is what the records are, and a storage is `Faithful` to it when reads
return what is there and a write changes the one record it names. The storage in memory
is (`memory_faithful`). -/
namespace ManyTier.Controller

/-- The calls the engine makes. A call that fails changes nothing. -/
structure Storage (σ : Type) where
  getNetwork : σ → UInt64 → Except Bytes (Option NetworkRecord)
  createNetwork : σ → NetworkRecord → Except Bytes σ
  getMember : σ → UInt64 → ByteVec 5 → Except Bytes (Option MemberRecord)
  upsertMember : σ → MemberRecord → Except Bytes σ
  listMembers : σ → UInt64 → Except Bytes (List (ByteVec 5))
  getIpPools : σ → UInt64 → Except Bytes (List IpPool)
  getRoutes : σ → UInt64 → Except Bytes (List ManagedRoute)
  getAssignedIps : σ → UInt64 → Except Bytes (List Text)

/-! ### The records -/

/-- Every record under its own key. -/
@[ext] structure Store where
  network : UInt64 → Option NetworkRecord
  member : UInt64 → ByteVec 5 → Option MemberRecord
  ipPools : UInt64 → List IpPool
  routes : UInt64 → List ManagedRoute

namespace Store

def setMember (st : Store) (m : MemberRecord) : Store :=
  { st with member := fun id node => if id = m.networkId ∧ node = m.nodeId then some m else st.member id node }

variable (st : Store) (m : MemberRecord)

@[simp] theorem network_setMember : (st.setMember m).network = st.network := rfl
@[simp] theorem ipPools_setMember : (st.setMember m).ipPools = st.ipPools := rfl
@[simp] theorem routes_setMember : (st.setMember m).routes = st.routes := rfl

@[simp] theorem member_setMember_self : (st.setMember m).member m.networkId m.nodeId = some m := by
  simp [setMember]

theorem member_setMember_of_ne {id : UInt64} {node : ByteVec 5} (h : ¬ (id = m.networkId ∧ node = m.nodeId)) :
    (st.setMember m).member id node = st.member id node := by
  simp [setMember, h]

/-- Of two writes to one record the second stays. -/
theorem setMember_setMember {m' : MemberRecord} (hid : m'.networkId = m.networkId) (hnode : m'.nodeId = m.nodeId) :
    (st.setMember m).setMember m' = st.setMember m' := by
  ext1
  · rfl
  · funext id node
    simp only [setMember, hid, hnode]
    split
    · rfl
    · rfl
  · rfl
  · rfl

/-- Writing what is there changes nothing. -/
theorem setMember_self {m : MemberRecord} (h : st.member m.networkId m.nodeId = some m) : st.setMember m = st := by
  ext1
  · rfl
  · funext id node
    simp only [setMember]
    split
    · rename_i heq
      rw [heq.1, heq.2, h]
    · rfl
  · rfl
  · rfl

end Store

/-- Every member is under its own key. -/
def Store.Keyed (st : Store) : Prop :=
  ∀ id node m, st.member id node = some m → m.networkId = id ∧ m.nodeId = node

/-- A storage that returns what was last written. -/
structure Faithful {σ : Type} (storage : Storage σ) (view : σ → Store) : Prop where
  getNetwork : ∀ s id, storage.getNetwork s id = .ok ((view s).network id)
  getMember : ∀ s id node, storage.getMember s id node = .ok ((view s).member id node)
  upsertMember : ∀ s m, ∃ s', storage.upsertMember s m = .ok s' ∧ view s' = (view s).setMember m
  listMembers : ∀ s id, ∃ nodes, storage.listMembers s id = .ok nodes ∧ nodes.Nodup ∧
    ∀ node, node ∈ nodes ↔ ((view s).member id node).isSome
  getIpPools : ∀ s id, storage.getIpPools s id = .ok ((view s).ipPools id)
  getRoutes : ∀ s id, storage.getRoutes s id = .ok ((view s).routes id)
  getAssignedIps : ∀ s id, ∃ ips, storage.getAssignedIps s id = .ok ips ∧
    ∀ ip, ip ∈ ips ↔ ∃ node m, (view s).member id node = some m ∧ ip ∈ m.ipAssignments
  networkKey : ∀ s id network, (view s).network id = some network → network.id = id
  keyed : ∀ s, (view s).Keyed

/-! ### In memory -/

def MemberRecord.key (m : MemberRecord) : UInt64 × ByteVec 5 := (m.networkId, m.nodeId)

/-- Lists of records. No two members have one key: a member is only ever added when none
has its key. -/
structure InMemoryStorage where
  networks : List NetworkRecord
  members : List MemberRecord
  ipPools : List (UInt64 × IpPool)
  routes : List (UInt64 × ManagedRoute)
  memberKeys : (members.map MemberRecord.key).Nodup

namespace InMemoryStorage

def new : InMemoryStorage where
  networks := []
  members := []
  ipPools := []
  routes := []
  memberKeys := List.nodup_nil

def getMember (s : InMemoryStorage) (id : UInt64) (node : ByteVec 5) : Option MemberRecord :=
  s.members.find? fun m => m.networkId = id ∧ m.nodeId = node

/-- The record with the member's key replaced, or else the member added. -/
def upserted (members : List MemberRecord) (m : MemberRecord) : List MemberRecord :=
  if (members.find? fun x => x.networkId = m.networkId ∧ x.nodeId = m.nodeId).isSome then
    modifyFirst (fun x => x.networkId = m.networkId ∧ x.nodeId = m.nodeId) (fun _ => m) members
  else members ++ [m]

theorem memberKeys_upserted {members : List MemberRecord} (h : (members.map MemberRecord.key).Nodup)
    (m : MemberRecord) : ((upserted members m).map MemberRecord.key).Nodup := by
  unfold upserted
  split
  · rw [map_modifyFirst]
    · exact h
    · intro x hx
      have hkey : x.networkId = m.networkId ∧ x.nodeId = m.nodeId := by simpa using List.find?_some hx
      simp [MemberRecord.key, hkey]
  · rename_i hnone
    have hnone' : ∀ x ∈ members, ¬ (x.networkId = m.networkId ∧ x.nodeId = m.nodeId) := by simpa using hnone
    rw [List.map_append, List.nodup_append]
    refine ⟨h, by simp, ?_⟩
    intro key hkey key' hkey' heq
    obtain ⟨x, hx, rfl⟩ := List.mem_map.mp hkey
    obtain rfl : key' = m.key := by simpa using hkey'
    exact hnone' x hx (by simpa [MemberRecord.key] using heq)

def upsertMember (s : InMemoryStorage) (m : MemberRecord) : InMemoryStorage :=
  { s with members := upserted s.members m, memberKeys := memberKeys_upserted s.memberKeys m }

def storage : Storage InMemoryStorage where
  getNetwork := fun s id => .ok (s.networks.find? fun n => n.id = id)
  createNetwork := fun s network => .ok { s with networks := s.networks ++ [network] }
  getMember := fun s id node => .ok (s.getMember id node)
  upsertMember := fun s m => .ok (s.upsertMember m)
  listMembers := fun s id => .ok ((s.members.filter fun m => m.networkId = id).map MemberRecord.nodeId)
  getIpPools := fun s id => .ok ((s.ipPools.filter fun p => p.1 = id).map Prod.snd)
  getRoutes := fun s id => .ok ((s.routes.filter fun r => r.1 = id).map Prod.snd)
  getAssignedIps := fun s id => .ok ((s.members.filter fun m => m.networkId = id).flatMap MemberRecord.ipAssignments)

def view (s : InMemoryStorage) : Store where
  network := fun id => s.networks.find? fun n => n.id = id
  member := s.getMember
  ipPools := fun id => (s.ipPools.filter fun p => p.1 = id).map Prod.snd
  routes := fun id => (s.routes.filter fun r => r.1 = id).map Prod.snd

theorem getMember_key {s : InMemoryStorage} {id : UInt64} {node : ByteVec 5} {m : MemberRecord}
    (h : s.getMember id node = some m) : m ∈ s.members ∧ m.networkId = id ∧ m.nodeId = node :=
  ⟨List.mem_of_find?_eq_some h, by simpa using List.find?_some h⟩

/-- A member is found under its key. -/
theorem getMember_of_mem {s : InMemoryStorage} {m : MemberRecord} (h : m ∈ s.members) :
    s.getMember m.networkId m.nodeId = some m := by
  cases hfound : s.getMember m.networkId m.nodeId with
  | none =>
    have hnone := List.find?_eq_none.mp hfound m h
    simp at hnone
  | some m' =>
    obtain ⟨hmem, hid, hnode⟩ := getMember_key hfound
    rw [List.inj_on_of_nodup_map s.memberKeys hmem h (by simp [MemberRecord.key, hid, hnode])]

theorem getMember_upsertMember (s : InMemoryStorage) (m : MemberRecord) (id : UInt64) (node : ByteVec 5) :
    (s.upsertMember m).getMember id node =
      if id = m.networkId ∧ node = m.nodeId then some m else s.getMember id node := by
  by_cases hkey : id = m.networkId ∧ node = m.nodeId
  · obtain ⟨rfl, rfl⟩ := hkey
    rw [if_pos ⟨rfl, rfl⟩]
    show (upserted s.members m).find? _ = _
    unfold upserted
    split
    · rename_i hsome
      obtain ⟨x, hx⟩ := Option.isSome_iff_exists.mp hsome
      rw [find?_modifyFirst (by simp), hx]
      rfl
    · rename_i hnone
      rw [List.find?_append]
      simp only [Option.not_isSome_iff_eq_none] at hnone
      rw [hnone]
      simp
  · rw [if_neg hkey]
    have hne : ¬ (m.networkId = id ∧ m.nodeId = node) := fun h => hkey ⟨h.1.symm, h.2.symm⟩
    show (upserted s.members m).find? _ = _
    unfold upserted
    split
    · apply find?_modifyFirst_of_ne
      intro x hx
      have hx' : x.networkId = m.networkId ∧ x.nodeId = m.nodeId := by simpa using hx
      simp [hx', hne]
    · rw [List.find?_append]
      simp [hne, getMember]

theorem memory_faithful : Faithful storage view where
  getNetwork := fun _ _ => rfl
  getMember := fun _ _ _ => rfl
  getIpPools := fun _ _ => rfl
  getRoutes := fun _ _ => rfl
  upsertMember := by
    intro s m
    refine ⟨_, rfl, ?_⟩
    ext1
    · rfl
    · funext id node
      exact getMember_upsertMember s m id node
    · rfl
    · rfl
  listMembers := by
    intro s id
    refine ⟨_, rfl, ?_, ?_⟩
    · refine List.Nodup.map_on ?_ (s.memberKeys.of_map.filter _)
      intro x hx y hy hnode
      obtain ⟨hx, hxid⟩ := List.mem_filter.mp hx
      obtain ⟨hy, hyid⟩ := List.mem_filter.mp hy
      have hid : x.networkId = y.networkId := (of_decide_eq_true hxid).trans (of_decide_eq_true hyid).symm
      exact List.inj_on_of_nodup_map s.memberKeys hx hy (Prod.ext hid hnode)
    · intro node
      constructor
      · intro hnode
        obtain ⟨m, hm, rfl⟩ := List.mem_map.mp hnode
        obtain ⟨hmem, hid⟩ := List.mem_filter.mp hm
        obtain rfl : m.networkId = id := by simpa using hid
        exact Option.isSome_iff_exists.mpr ⟨m, getMember_of_mem hmem⟩
      · intro hsome
        obtain ⟨m, hm⟩ := Option.isSome_iff_exists.mp hsome
        obtain ⟨hmem, hid, rfl⟩ := getMember_key hm
        exact List.mem_map.mpr ⟨m, List.mem_filter.mpr ⟨hmem, by simpa using hid⟩, rfl⟩
  getAssignedIps := by
    intro s id
    refine ⟨_, rfl, ?_⟩
    intro ip
    constructor
    · intro hip
      obtain ⟨m, hm, hassigned⟩ := List.mem_flatMap.mp hip
      obtain ⟨hmem, hid⟩ := List.mem_filter.mp hm
      obtain rfl : m.networkId = id := by simpa using hid
      exact ⟨m.nodeId, m, getMember_of_mem hmem, hassigned⟩
    · rintro ⟨node, m, hm, hip⟩
      obtain ⟨hmem, hid, -⟩ := getMember_key hm
      exact List.mem_flatMap.mpr ⟨m, List.mem_filter.mpr ⟨hmem, by simpa using hid⟩, hip⟩
  networkKey := by
    intro s id network h
    simpa using List.find?_some h
  keyed := fun s id node m h => (getMember_key h).2

end InMemoryStorage

end ManyTier.Controller
