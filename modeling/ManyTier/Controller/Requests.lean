import ManyTier.Controller.Engine

/-! What the controller's calls do to the records, over a storage that returns what was
last written.

A request ends in one of three ways: there is no such network, or it is private and the
member is not authorised, or the member is served. It leaves the store with at most one
record changed, the requester's, and what is issued is built from the store it leaves.
`Effect` says this of every command on the records alone, and a step of the controller
has the effect of its command (`step_effect`). -/
namespace ManyTier.Controller

/-- The member that asks: its record, or a new one. -/
def Store.requester (st : Store) (networkId : UInt64) (node : ByteVec 5) (now : UInt64) : MemberRecord :=
  (st.member networkId node).getD (newMember networkId node now)

theorem Store.Keyed.requester {st : Store} (h : st.Keyed) (networkId : UInt64) (node : ByteVec 5) (now : UInt64) :
    (st.requester networkId node now).networkId = networkId ∧ (st.requester networkId node now).nodeId = node := by
  rw [Store.requester]
  cases hmember : st.member networkId node with
  | none => exact ⟨rfl, rfl⟩
  | some m => exact h networkId node m hmember

/-- The IPv4 addresses a member's assignments name. -/
def MemberRecord.heldIpv4s (m : MemberRecord) : List (ByteVec 4) := m.ipAssignments.filterMap parseIpv4FromAssignment

/-- Whether a member of the network holds an address. -/
def Store.Held (st : Store) (networkId : UInt64) (ip : ByteVec 4) : Prop :=
  ∃ node m, st.member networkId node = some m ∧ ip ∈ m.heldIpv4s

/-- What becomes of the assignments of a member that is served: they stay, where there are
some, or none are assigned, or no address is free; or else the first free address is
assigned. -/
def Store.Assigns (st : Store) (networkId : UInt64) (network : NetworkRecord) (before after : List Text) : Prop :=
  after = before ∧ (before = [] → network.v4AssignMode = assignModeZt →
      ∀ pool ∈ st.ipPools networkId, ∀ ip, pool.Contains ip → st.Held networkId ip) ∨
    before = [] ∧ network.v4AssignMode = assignModeZt ∧
      ∃ ip, FirstFree (st.ipPools networkId) (st.Held networkId) ip ∧ after = [assignmentOf ip]

/-- Every member of a network, once. -/
structure Store.Lists (st : Store) (networkId : UInt64) (members : List MemberRecord) : Prop where
  mem : ∀ m, m ∈ members ↔ st.member networkId m.nodeId = some m
  nodup : (members.map MemberRecord.nodeId).Nodup

/-- The record that a member who is served ends with. -/
structure Store.Serves (st : Store) (networkId : UInt64) (node : ByteVec 5) (now : UInt64) (network : NetworkRecord)
    (m : MemberRecord) : Prop where
  found : st.network networkId = some network
  admitted : network.isPrivate = true → (st.requester networkId node now).authorized = true
  record : ∃ ips, m = { st.requester networkId node now with
      authorized := true, ipAssignments := ips, lastSeen := now } ∧
    st.Assigns networkId network (st.requester networkId node now).ipAssignments ips

/-- What is issued to a member, given the routes and the members of its network. -/
def Engine.issued {σ : Type} (c : Engine σ) (pr : Primitives) (networkId : UInt64) (requester : ByteVec 5)
    (network : NetworkRecord) (m : MemberRecord) (now : UInt64) (routes : List ManagedRoute)
    (members : List MemberRecord) : Except Failure ConfigResponse := do
  let com := buildSignedCom pr c.signingKey c.address.bytes networkId (ztAddressToU64 requester) now
  let capabilitiesRaw := c.capabilitiesRaw pr networkId requester network m now
  let tagsRaw := c.tagsRaw pr networkId requester m now
  let base ← (buildNetworkConfig network m routes com now capabilitiesRaw tagsRaw).mapError .fault
  let dictData ← appendPeerDirectory pr c.signingKey c.address.bytes networkId now base members
  return {
    config := { networkId, dictData, flags := none, configUpdateId := none, totalLength := none
                chunkIndex := none, signatureType := none, signature := none }
    credentials := { com := some com, capabilitiesRaw, tagsRaw, revocationsRaw := [], cooRaw := [] } }

/-- A record with the assignments that were there changes nothing about who holds what. -/
theorem Store.held_setMember {st : Store} {networkId : UInt64} {node : ByteVec 5} {now : UInt64} {m : MemberRecord}
    (hid : m.networkId = networkId) (hnode : m.nodeId = node)
    (hips : m.ipAssignments = (st.requester networkId node now).ipAssignments) :
    (st.setMember m).Held networkId = st.Held networkId := by
  have hheld : m.heldIpv4s = (st.requester networkId node now).heldIpv4s := by
    rw [MemberRecord.heldIpv4s, hips]
    rfl
  funext ip
  apply propext
  constructor
  · rintro ⟨other, m', hm', hip⟩
    by_cases hother : networkId = m.networkId ∧ other = m.nodeId
    · obtain rfl : m = m' := by simpa [setMember, hother] using hm'
      rw [hheld, requester] at hip
      cases hmember : st.member networkId node with
      | none =>
        rw [hmember] at hip
        cases hip
      | some m₀ =>
        rw [hmember] at hip
        exact ⟨node, m₀, hmember, hip⟩
    · rw [st.member_setMember_of_ne m hother] at hm'
      exact ⟨other, m', hm', hip⟩
  · rintro ⟨other, m', hm', hip⟩
    by_cases hother : networkId = m.networkId ∧ other = m.nodeId
    · obtain ⟨-, rfl⟩ := hother
      refine ⟨m.nodeId, m, by simp [setMember, hid], ?_⟩
      rw [hheld, requester, ← hnode, hm']
      exact hip
    · exact ⟨other, m', by rw [st.member_setMember_of_ne m hother, hm'], hip⟩

section
variable {σ : Type} {c : Engine σ} {view : σ → Store} (hf : Faithful c.storage view)

/-! ### The storage -/

theorem run_stored {α : Type} {f : σ → Except Bytes α} {s : σ} {a : α} (h : f s = .ok a) :
    (stored f).run s = (.ok a, s) :=
  Attempt.run_read (by simp [h, Except.mapError])

theorem run_storing {f : σ → Except Bytes σ} {s s' : σ} (h : f s = .ok s') : (storing f).run s = (.ok (), s') :=
  Attempt.run_write (by simp [h, Except.mapError])

namespace Engine
include hf

theorem run_getNetwork (networkId : UInt64) (s : σ) :
    (stored fun s => c.storage.getNetwork s networkId).run s = (.ok ((view s).network networkId), s) :=
  run_stored (hf.getNetwork s networkId)

theorem run_getMember (networkId : UInt64) (node : ByteVec 5) (s : σ) :
    (stored fun s => c.storage.getMember s networkId node).run s = (.ok ((view s).member networkId node), s) :=
  run_stored (hf.getMember s networkId node)

theorem run_getIpPools (networkId : UInt64) (s : σ) :
    (stored fun s => c.storage.getIpPools s networkId).run s = (.ok ((view s).ipPools networkId), s) :=
  run_stored (hf.getIpPools s networkId)

theorem run_getRoutes (networkId : UInt64) (s : σ) :
    (stored fun s => c.storage.getRoutes s networkId).run s = (.ok ((view s).routes networkId), s) :=
  run_stored (hf.getRoutes s networkId)

/-- The addresses that are named are those that are held. -/
theorem run_getAssignedIps (networkId : UInt64) (s : σ) : ∃ assigned,
    (stored fun s => c.storage.getAssignedIps s networkId).run s = (.ok assigned, s) ∧
      ∀ ip, Named assigned ip ↔ (view s).Held networkId ip := by
  obtain ⟨assigned, hread, hmem⟩ := hf.getAssignedIps s networkId
  refine ⟨assigned, run_stored hread, fun ip => ?_⟩
  constructor
  · rintro ⟨assignment, hassigned, hparse⟩
    obtain ⟨node, m, hm, hmem⟩ := (hmem assignment).mp hassigned
    exact ⟨node, m, hm, List.mem_filterMap.mpr ⟨assignment, hmem, hparse⟩⟩
  · rintro ⟨node, m, hm, hheld⟩
    obtain ⟨assignment, hassigned, hparse⟩ := List.mem_filterMap.mp hheld
    exact ⟨assignment, (hmem assignment).mpr ⟨node, m, hm, hassigned⟩, hparse⟩

theorem run_upsertMember (m : MemberRecord) (s : σ) : ∃ s',
    (storing fun s => c.storage.upsertMember s m).run s = (.ok (), s') ∧ view s' = (view s).setMember m := by
  obtain ⟨s', hs', hview⟩ := hf.upsertMember s m
  exact ⟨s', run_storing hs', hview⟩

/-- A record written and returned. -/
theorem run_upsert_return (m : MemberRecord) (s : σ) : ∃ s',
    (do storing fun s => c.storage.upsertMember s m; return m : Attempt σ Failure MemberRecord).run s = (.ok m, s') ∧
      view s' = (view s).setMember m := by
  obtain ⟨s', hs', hview⟩ := run_upsertMember hf m s
  exact ⟨s', Attempt.run_bind_ok hs' _, hview⟩

/-! ### The phases of a request -/

theorem lookupNetwork_some {networkId : UInt64} {network : NetworkRecord} {s : σ}
    (h : (view s).network networkId = some network) : (c.lookupNetwork networkId).run s = (.ok network, s) := by
  rw [lookupNetwork, Attempt.run_bind_ok (run_getNetwork hf networkId s), h]
  rfl

theorem lookupNetwork_none {networkId : UInt64} {s : σ} (h : (view s).network networkId = none) :
    (c.lookupNetwork networkId).run s = (.error (.error .networkNotFound), s) := by
  rw [lookupNetwork, Attempt.run_bind_ok (run_getNetwork hf networkId s), h]
  rfl

theorem findOrCreateMember_ok (networkId : UInt64) (node : ByteVec 5) (now : UInt64) (s : σ) :
    ∃ s', (c.findOrCreateMember networkId node now).run s = (.ok ((view s).requester networkId node now), s') ∧
      view s' = (view s).setMember ((view s).requester networkId node now) := by
  rw [findOrCreateMember, Attempt.run_bind_ok (run_getMember hf networkId node s), Store.requester]
  cases hmember : (view s).member networkId node with
  | none => exact run_upsert_return hf _ s
  | some m =>
    obtain ⟨hid, hnode⟩ := hf.keyed s networkId node m hmember
    refine ⟨s, rfl, ((view s).setMember_self ?_).symm⟩
    simpa [hid, hnode] using hmember

omit hf in
theorem applyPolicy_refused {network : NetworkRecord} {m : MemberRecord} (hprivate : network.isPrivate = true)
    (hauth : m.authorized = false) (s : σ) :
    (c.applyPolicy network m).run s = (.error (.error .memberNotAuthorized), s) := by
  simp [applyPolicy, hprivate, hauth]

/-- Who is not refused is authorised. -/
theorem applyPolicy_ok {network : NetworkRecord} {m : MemberRecord}
    (hadmitted : network.isPrivate = true → m.authorized = true) {s : σ}
    (hstored : (view s).member m.networkId m.nodeId = some m) :
    ∃ s', (c.applyPolicy network m).run s = (.ok { m with authorized := true }, s') ∧
      view s' = (view s).setMember { m with authorized := true } := by
  cases hauth : m.authorized with
  | true =>
    have hsame : { m with authorized := true } = m := by rw [← hauth]
    rw [hsame]
    refine ⟨s, ?_, ((view s).setMember_self hstored).symm⟩
    cases hprivate : network.isPrivate <;> simp [applyPolicy, hprivate, hauth]
  | false =>
    have hpublic : network.isPrivate = false := by
      cases hprivate : network.isPrivate with
      | false => rfl
      | true =>
        rw [hadmitted hprivate] at hauth
        cases hauth
    obtain ⟨s', hs', hview⟩ := run_upsert_return hf { m with authorized := true } s
    exact ⟨s', by simpa [applyPolicy, hpublic, hauth] using hs', hview⟩

theorem assignIp_ok (networkId : UInt64) (network : NetworkRecord) {m : MemberRecord} {s : σ}
    (hstored : (view s).member m.networkId m.nodeId = some m) :
    ∃ ips s', (c.assignIp networkId network m).run s = (.ok { m with ipAssignments := ips }, s') ∧
      view s' = (view s).setMember { m with ipAssignments := ips } ∧
      (view s).Assigns networkId network m.ipAssignments ips := by
  have hkept := ((view s).setMember_self hstored).symm
  have hidle : m.ipAssignments ≠ [] ∨ network.v4AssignMode ≠ assignModeZt →
      (c.assignIp networkId network m).run s = (.ok m, s) := by
    intro hidle
    unfold assignIp
    rw [if_neg]
    · rfl
    · rcases hidle with h | h <;> simp [h]
  by_cases hempty : m.ipAssignments = []
  · by_cases hmode : network.v4AssignMode = assignModeZt
    · unfold assignIp
      rw [if_pos (by simp [hempty, hmode]), Attempt.run_bind_ok (run_getIpPools hf networkId s)]
      by_cases hpools : (view s).ipPools networkId = []
      · refine ⟨m.ipAssignments, s, ?_, hkept, .inl ⟨rfl, fun _ _ pool hpool => ?_⟩⟩
        · simp [hpools]
        · rw [hpools] at hpool
          cases hpool
      · obtain ⟨assigned, hassigned, hnamed⟩ := run_getAssignedIps hf networkId s
        rw [if_neg (by simpa using hpools), Attempt.run_bind_ok hassigned]
        have hheld : Named assigned = (view s).Held networkId := funext fun ip => propext (hnamed ip)
        cases hallocate : allocateIpv4 ((view s).ipPools networkId) assigned with
        | none =>
          have hnone := allocateIpv4_none hallocate
          rw [hheld] at hnone
          exact ⟨m.ipAssignments, s, rfl, hkept, .inl ⟨rfl, fun _ _ => hnone⟩⟩
        | some ip =>
          have hfirst := allocateIpv4_some hallocate
          rw [hheld] at hfirst
          obtain ⟨s', hs', hview⟩ :=
            run_upsert_return hf { m with ipAssignments := m.ipAssignments ++ [assignmentOf ip] } s
          exact ⟨_, s', hs', hview, .inr ⟨hempty, hmode, ip, hfirst, by simp [hempty]⟩⟩
    · exact ⟨m.ipAssignments, s, hidle (.inr hmode), hkept, .inl ⟨rfl, fun _ h => absurd h hmode⟩⟩
  · exact ⟨m.ipAssignments, s, hidle (.inl hempty), hkept, .inl ⟨rfl, fun h => absurd h hempty⟩⟩

theorem noteSeen_ok (m : MemberRecord) (now : UInt64) (s : σ) :
    ∃ s', (c.noteSeen m now).run s = (.ok { m with lastSeen := now }, s') ∧
      view s' = (view s).setMember { m with lastSeen := now } :=
  run_upsert_return hf _ s

/-- The records of nodes are those that are there, in their order. -/
theorem readMembers_ok (networkId : UInt64) (nodes : List (ByteVec 5)) (s : σ) :
    (c.readMembers networkId nodes).run s = (.ok (nodes.filterMap ((view s).member networkId)), s) := by
  induction nodes with
  | nil => rfl
  | cons node rest ih =>
    rw [readMembers, Attempt.run_bind_ok (run_getMember hf networkId node s), Attempt.run_bind_ok ih]
    cases hmember : (view s).member networkId node <;> simp [hmember]

/-- The members that are read are all there are. -/
theorem listed_members (networkId : UInt64) (s : σ) : ∃ nodes,
    (stored fun s => c.storage.listMembers s networkId).run s = (.ok nodes, s) ∧
      (view s).Lists networkId (nodes.filterMap ((view s).member networkId)) := by
  obtain ⟨nodes, hread, hnodup, hmem⟩ := hf.listMembers s networkId
  have hkey : ∀ node m, (view s).member networkId node = some m → m.nodeId = node :=
    fun node m h => (hf.keyed s networkId node m h).2
  refine ⟨nodes, run_stored hread, ?_, ?_⟩
  · intro m
    constructor
    · intro hm
      obtain ⟨node, -, hmember⟩ := List.mem_filterMap.mp hm
      rw [hkey node m hmember]
      exact hmember
    · intro hmember
      exact List.mem_filterMap.mpr ⟨m.nodeId, (hmem m.nodeId).mpr (by simp [hmember]), hmember⟩
  · have hsame : ∀ l : List (ByteVec 5), ((l.filterMap ((view s).member networkId)).map MemberRecord.nodeId).Sublist l := by
      intro l
      induction l with
      | nil => simp
      | cons node rest ih =>
        cases hmember : (view s).member networkId node with
        | none => simpa [List.filterMap_cons, hmember] using ih.cons node
        | some m => simpa [hmember, hkey node m hmember] using ih
    exact (hsame nodes).nodup hnodup

/-- Nothing is written when a configuration is issued, and what is issued is built from
the record, the routes and the directory of the members there are. -/
theorem issueConfig_run (pr : Primitives) (networkId : UInt64) (requester : ByteVec 5) (network : NetworkRecord)
    (m : MemberRecord) (now : UInt64) (s : σ) : ∃ members, (view s).Lists networkId members ∧
      (c.issueConfig pr networkId requester network m now).run s =
        (c.issued pr networkId requester network m now ((view s).routes networkId) members, s) := by
  obtain ⟨nodes, hnodes, hlists⟩ := listed_members hf networkId s
  refine ⟨_, hlists, ?_⟩
  unfold issueConfig issued
  rw [Attempt.run_bind_ok (run_getRoutes hf networkId s)]
  simp only
  cases hbase : buildNetworkConfig network m ((view s).routes networkId)
      (buildSignedCom pr c.signingKey c.address.bytes networkId (ztAddressToU64 requester) now) now
      (c.capabilitiesRaw pr networkId requester network m now) (c.tagsRaw pr networkId requester m now) with
  | error f => exact Attempt.run_bind_error rfl _
  | ok base =>
    have hok : (Except.ok base : Except Fault Bytes).mapError Failure.fault = .ok base := rfl
    rw [hok, Attempt.run_bind_ok (Attempt.run_lift _ s), Attempt.run_bind_ok hnodes,
      Attempt.run_bind_ok (readMembers_ok hf networkId nodes s), ok_bind]
    cases happend : appendPeerDirectory pr c.signingKey c.address.bytes networkId now base
        (nodes.filterMap ((view s).member networkId)) with
    | error e =>
      rw [Attempt.run_bind_error (Attempt.run_lift _ s)]
      rfl
    | ok dictData =>
      rw [Attempt.run_bind_ok (Attempt.run_lift _ s)]
      rfl

/-! ### A request as a whole -/

theorem handleConfigRequest_unknown (pr : Primitives) {networkId : UInt64} (requester : ByteVec 5) (now : UInt64)
    {s : σ} (h : (view s).network networkId = none) :
    (c.handleConfigRequest pr networkId requester now).run s = (.error (.error .networkNotFound), s) := by
  rw [handleConfigRequest, Attempt.run_bind_error (lookupNetwork_none hf h)]

/-- A member that is not authorised is refused by a private network, and on record. -/
theorem handleConfigRequest_refused (pr : Primitives) {networkId : UInt64} {requester : ByteVec 5} {now : UInt64}
    {network : NetworkRecord} {s : σ} (h : (view s).network networkId = some network)
    (hprivate : network.isPrivate = true)
    (hauth : ((view s).requester networkId requester now).authorized = false) :
    ∃ s', (c.handleConfigRequest pr networkId requester now).run s = (.error (.error .memberNotAuthorized), s') ∧
      view s' = (view s).setMember ((view s).requester networkId requester now) := by
  obtain ⟨s', hs', hview⟩ := findOrCreateMember_ok hf networkId requester now s
  refine ⟨s', ?_, hview⟩
  rw [handleConfigRequest, Attempt.run_bind_ok (lookupNetwork_some hf h), Attempt.run_bind_ok hs',
    Attempt.run_bind_error (applyPolicy_refused hprivate hauth s')]

/-- A member that is not refused is served: its record is written, and the configuration is
issued from the store with that record. -/
theorem handleConfigRequest_served (pr : Primitives) {networkId : UInt64} {requester : ByteVec 5} {now : UInt64}
    {network : NetworkRecord} {s : σ} (h : (view s).network networkId = some network)
    (hadmitted : network.isPrivate = true → ((view s).requester networkId requester now).authorized = true) :
    ∃ m s' members, (view s).Serves networkId requester now network m ∧ view s' = (view s).setMember m ∧
      (view s').Lists networkId members ∧
      (c.handleConfigRequest pr networkId requester now).run s =
        (c.issued pr networkId requester network m now ((view s).routes networkId) members, s') := by
  set r := (view s).requester networkId requester now with hr
  obtain ⟨hid, hnode⟩ := (hf.keyed s).requester networkId requester now
  obtain ⟨s₁, hs₁, hview₁⟩ := findOrCreateMember_ok hf networkId requester now s
  obtain ⟨s₂, hs₂, hview₂⟩ := applyPolicy_ok hf hadmitted (show (view s₁).member r.networkId r.nodeId = some r by
    rw [hview₁, Store.member_setMember_self])
  set r₂ : MemberRecord := { r with authorized := true } with hr₂
  have hset₂ : view s₂ = (view s).setMember r₂ := by
    rw [hview₂, hview₁]
    exact Store.setMember_setMember _ _ rfl rfl
  obtain ⟨ips, s₃, hs₃, hview₃, hassigns⟩ := assignIp_ok hf networkId network
    (show (view s₂).member r₂.networkId r₂.nodeId = some r₂ by rw [hset₂, Store.member_setMember_self])
  have hset₃ : view s₃ = (view s).setMember { r₂ with ipAssignments := ips } := by
    rw [hview₃, hset₂]
    exact Store.setMember_setMember _ _ rfl rfl
  obtain ⟨s₄, hs₄, hview₄⟩ := noteSeen_ok hf { r₂ with ipAssignments := ips } now s₃
  have hset₄ : view s₄ = (view s).setMember { r₂ with ipAssignments := ips, lastSeen := now } := by
    rw [hview₄, hset₃]
    exact Store.setMember_setMember _ _ rfl rfl
  obtain ⟨members, hlists, hissue⟩ := issueConfig_run hf pr networkId requester network
    { r₂ with ipAssignments := ips, lastSeen := now } now s₄
  refine ⟨_, s₄, members, ⟨h, hadmitted, ips, rfl, ?_⟩, hset₄, hlists, ?_⟩
  · have hheld : (view s₂).Held networkId = (view s).Held networkId := by
      rw [hset₂]
      exact Store.held_setMember hid hnode rfl
    have hpools : (view s₂).ipPools = (view s).ipPools := by rw [hset₂]; rfl
    rw [Store.Assigns, hheld, hpools] at hassigns
    exact hassigns
  · have hroutes : (view s₄).routes = (view s).routes := by rw [hset₄]; rfl
    rw [handleConfigRequest, Attempt.run_bind_ok (lookupNetwork_some hf h), Attempt.run_bind_ok hs₁, Attempt.run_bind_ok hs₂,
      Attempt.run_bind_ok hs₃, Attempt.run_bind_ok hs₄, hissue, hroutes]

/-! ### Authorisation -/

theorem setAuthorized_none {networkId : UInt64} {node : ByteVec 5} {s : σ}
    (h : (view s).member networkId node = none) (authorized : Bool) :
    (c.setAuthorized networkId node authorized).run s = (.error (.error .networkNotFound), s) := by
  rw [setAuthorized, Attempt.run_bind_ok (run_getMember hf networkId node s), h]
  rfl

theorem setAuthorized_some {networkId : UInt64} {node : ByteVec 5} {s : σ} {m : MemberRecord}
    (h : (view s).member networkId node = some m) (authorized : Bool) :
    ∃ s', (c.setAuthorized networkId node authorized).run s = (.ok (), s') ∧
      view s' = (view s).setMember { m with authorized } := by
  rw [setAuthorized, Attempt.run_bind_ok (run_getMember hf networkId node s), h]
  exact run_upsertMember hf { m with authorized } s

end Engine

end

/-! ### Commands on the records -/

/-- Whether a command is to authorise a member or to withdraw that, and which one. -/
def Command.sets : Command → Option (UInt64 × ByteVec 5 × Bool)
  | .configRequest .. => none
  | .authorize networkId node => some (networkId, node, true)
  | .deauthorize networkId node => some (networkId, node, false)

/-- What a command replies and does to the records. -/
inductive Effect {σ : Type} (c : Engine σ) (pr : Primitives) (st : Store) :
    Command → Except Failure Reply → Store → Prop where
  | unknown {networkId : UInt64} {node : ByteVec 5} {now : UInt64} (hnone : st.network networkId = none) :
    Effect c pr st (.configRequest networkId node now) (.error (.error .networkNotFound)) st
  | refused {networkId : UInt64} {node : ByteVec 5} {now : UInt64} {network : NetworkRecord}
      (hnetwork : st.network networkId = some network) (hprivate : network.isPrivate = true)
      (hauth : (st.requester networkId node now).authorized = false) :
    Effect c pr st (.configRequest networkId node now) (.error (.error .memberNotAuthorized))
      (st.setMember (st.requester networkId node now))
  | served {networkId : UInt64} {node : ByteVec 5} {now : UInt64} {network : NetworkRecord} {m : MemberRecord}
      {members : List MemberRecord} (hserves : st.Serves networkId node now network m)
      (hlists : (st.setMember m).Lists networkId members) :
    Effect c pr st (.configRequest networkId node now)
      ((c.issued pr networkId node network m now (st.routes networkId) members).map .config) (st.setMember m)
  | noMember {command : Command} {networkId : UInt64} {node : ByteVec 5} {authorized : Bool}
      (hsets : command.sets = some (networkId, node, authorized)) (hnone : st.member networkId node = none) :
    Effect c pr st command (.error (.error .networkNotFound)) st
  | authorized {command : Command} {networkId : UInt64} {node : ByteVec 5} {authorized : Bool} {m : MemberRecord}
      (hsets : command.sets = some (networkId, node, authorized)) (hmember : st.member networkId node = some m) :
    Effect c pr st command (.ok .done) (st.setMember { m with authorized })

section
variable {σ : Type} {c : Engine σ} {view : σ → Store} (hf : Faithful c.storage view)
include hf

theorem effect_setAuthorized (pr : Primitives) {command : Command} {networkId : UInt64} {node : ByteVec 5}
    {authorized : Bool} (hsets : command.sets = some (networkId, node, authorized)) (s : σ) :
    Effect c pr (view s) command
      ((c.setAuthorized networkId node authorized >>= fun _ => pure Reply.done : Attempt σ Failure Reply).run s).1
      (view ((c.setAuthorized networkId node authorized >>= fun _ => pure Reply.done : Attempt σ Failure Reply).run s).2) := by
  cases hmember : (view s).member networkId node with
  | none =>
    rw [Attempt.run_bind_error (Engine.setAuthorized_none hf hmember authorized)]
    exact .noMember hsets hmember
  | some m =>
    obtain ⟨s', hs', hview⟩ := Engine.setAuthorized_some hf hmember authorized
    rw [Attempt.run_bind_ok hs']
    show Effect c pr (view s) command (.ok .done) (view s')
    rw [hview]
    exact .authorized hsets hmember

theorem effect_configRequest (pr : Primitives) (networkId : UInt64) (node : ByteVec 5) (now : UInt64) (s : σ) :
    Effect c pr (view s) (.configRequest networkId node now)
      ((c.handleConfigRequest pr networkId node now >>= fun r => pure (Reply.config r) :
        Attempt σ Failure Reply).run s).1
      (view ((c.handleConfigRequest pr networkId node now >>= fun r => pure (Reply.config r) :
        Attempt σ Failure Reply).run s).2) := by
  cases hnetwork : (view s).network networkId with
  | none =>
    rw [Attempt.run_bind_error (Engine.handleConfigRequest_unknown hf pr node now hnetwork)]
    exact .unknown hnetwork
  | some network =>
    by_cases hrefused : network.isPrivate = true ∧ ((view s).requester networkId node now).authorized = false
    · obtain ⟨s', hs', hview⟩ := Engine.handleConfigRequest_refused hf pr hnetwork hrefused.1 hrefused.2
      rw [Attempt.run_bind_error hs', hview]
      exact .refused hnetwork hrefused.1 hrefused.2
    · obtain ⟨m, s', members, hserves, hview, hlists, hrun⟩ := Engine.handleConfigRequest_served hf pr hnetwork
        fun hprivate => by simpa [hprivate] using hrefused
      rw [hview] at hlists
      have heffect : Effect c pr (view s) _ _ _ := Effect.served hserves hlists
      cases hissued : c.issued pr networkId node network m now ((view s).routes networkId) members with
      | error e =>
        rw [hissued] at hrun heffect
        rw [Attempt.run_bind_error hrun, hview]
        exact heffect
      | ok response =>
        rw [hissued] at hrun heffect
        rw [Attempt.run_bind_ok hrun]
        show Effect c pr (view s) _ _ (view s')
        rw [hview]
        exact heffect

/-- A step does to the records what its command does. -/
theorem step_effect (pr : Primitives) {s s' : σ} {command : Command} {reply : Except Failure Reply}
    (h : c.step pr s command = .ok (s', reply)) : Effect c pr (view s) command reply (view s') := by
  obtain ⟨rfl, rfl⟩ := Prod.mk.inj (Except.ok.inj h)
  cases command with
  | configRequest networkId node now => exact effect_configRequest hf pr networkId node now s
  | authorize networkId node => exact effect_setAuthorized hf pr rfl s
  | deauthorize networkId node => exact effect_setAuthorized hf pr rfl s

end

end ManyTier.Controller
