import ManyTier.Controller.Trust
import ManyTier.Protocol.Codecs
import ManyTier.Service.Machine

/-! The packet in which a controller sends what it grants.

It holds the certificate, the capabilities and the tags of the member, 135 bytes for a
tag and 139 and the rules for a capability, and is built in a buffer of 512 bytes. A
member gets it exactly when what it is granted fits (`credentials_delivered_iff`). -/
namespace ManyTier

/-! ### What is granted -/

namespace Controller

section
variable (pr : Primitives) (networkId : UInt64) (issuedTo signedBy : ByteVec 5) (timestamp : UInt64)
  (signingKey : ByteVec 32)

theorem length_serializeTagsSigned (tags : List Tag) :
    (serializeTagsSigned pr networkId issuedTo signedBy timestamp signingKey tags).length = 135 * tags.length := by
  induction tags with
  | nil => rfl
  | cons tag rest ih =>
    rw [serializeTagsSigned] at ih ⊢
    rw [List.flatMap_cons, List.length_append, ih]
    simp [serializeTagSigned]
    omega

/-- The bytes a capability takes on the wire. -/
def capabilityLength (cap : Capability) : Nat := 139 + (serializeRules cap.rules).length

theorem length_serializeCapabilitiesSigned (caps : List Capability) :
    (serializeCapabilitiesSigned pr networkId issuedTo signedBy timestamp signingKey caps).length =
      (caps.map capabilityLength).sum := by
  induction caps with
  | nil => rfl
  | cons cap rest ih =>
    rw [serializeCapabilitiesSigned] at ih ⊢
    rw [List.flatMap_cons, List.length_append, ih, List.map_cons, List.sum_cons]
    simp [serializeCapabilitySigned, capabilityLength]
    omega

end

/-- The bytes of what a member is granted, beside its certificate. -/
def grantLength (network : NetworkRecord) (member : MemberRecord) : Nat :=
  135 * member.tags.length + ((Engine.grantedCapabilities network member).map capabilityLength).sum

theorem grantLength_congr (network : NetworkRecord) {m m' : MemberRecord} (htags : m'.tags = m.tags)
    (hcaps : m'.capabilities = m.capabilities) : grantLength network m' = grantLength network m := by
  rw [grantLength, grantLength, Engine.grantedCapabilities, Engine.grantedCapabilities, htags, hcaps]

namespace Engine
variable {σ : Type} (c : Engine σ) (pr : Primitives)

/-- What a member is issued beside its configuration. -/
def credentials (networkId : UInt64) (requester : ByteVec 5) (network : NetworkRecord) (member : MemberRecord)
    (now : UInt64) : NetworkCredentialsPayload where
  com := some (buildSignedCom pr c.signingKey c.address.bytes networkId (ztAddressToU64 requester) now)
  capabilitiesRaw := c.capabilitiesRaw pr networkId requester network member now
  tagsRaw := c.tagsRaw pr networkId requester member now
  revocationsRaw := []
  cooRaw := []

theorem length_capabilitiesRaw (networkId : UInt64) (requester : ByteVec 5) (network : NetworkRecord)
    (member : MemberRecord) (now : UInt64) :
    (c.capabilitiesRaw pr networkId requester network member now).length =
      ((grantedCapabilities network member).map capabilityLength).sum := by
  unfold capabilitiesRaw
  simp only
  split
  · rename_i hempty
    rw [List.isEmpty_iff.mp hempty]
    rfl
  · exact length_serializeCapabilitiesSigned ..

theorem length_tagsRaw (networkId : UInt64) (requester : ByteVec 5) (member : MemberRecord) (now : UInt64) :
    (c.tagsRaw pr networkId requester member now).length = 135 * member.tags.length := by
  unfold tagsRaw
  split
  · rename_i hempty
    rw [List.isEmpty_iff.mp hempty]
    rfl
  · exact length_serializeTagsSigned ..

/-- A certificate of three qualifiers takes 176 bytes, and it and the lengths of the four
sections 185 with the byte in front. -/
theorem length_credentials (networkId : UInt64) (requester : ByteVec 5) (network : NetworkRecord)
    (member : MemberRecord) (now : UInt64) :
    (c.credentials pr networkId requester network member now).serialize.length = 185 + grantLength network member := by
  have hsigned : c.address.bytes ≠ ByteVec.zero 5 := fun h => c.address.notZero (congrArg ByteVec.toBytes h)
  have hcaps := c.length_capabilitiesRaw pr networkId requester network member now
  have htags := c.length_tagsRaw pr networkId requester member now
  simp [NetworkCredentialsPayload.serialize, NetworkCredentialsPayload.serializeSection,
    CertificateOfMembership.serialize, CertificateOfMembership.serializeQualifier, credentials, buildSignedCom,
    comQualifiers, hsigned, hcaps, htags, grantLength]
  omega

/-! ### A request that is served -/

section
variable {c pr}

/-- What was read, the storage returned, and nothing was written. -/
theorem stored_eq_ok {α : Type} {f : σ → Except Bytes α} {s s' : σ} {a : α}
    (h : (stored f).run s = (.ok a, s')) : s' = s ∧ f s = .ok a := by
  have hread : (f s).mapError storageError = .ok a := congrArg Prod.fst h
  refine ⟨(congrArg Prod.snd h).symm, ?_⟩
  cases hf : f s with
  | error e =>
    rw [hf] at hread
    cases hread
  | ok b =>
    rw [hf] at hread
    exact congrArg _ (Except.ok.inj hread)

theorem lookupNetwork_eq_ok {networkId : UInt64} {s s' : σ} {network : NetworkRecord}
    (h : (c.lookupNetwork networkId).run s = (.ok network, s')) :
    s' = s ∧ c.storage.getNetwork s networkId = .ok (some network) := by
  obtain ⟨found, s₁, hread, hrest⟩ := Attempt.run_bind_eq_ok h
  obtain ⟨rfl, hfound⟩ := stored_eq_ok hread
  cases found with
  | none => cases hrest
  | some found =>
    cases hrest
    exact ⟨rfl, hfound⟩

theorem findOrCreateMember_eq_ok {networkId : UInt64} {requester : ByteVec 5} {now : UInt64} {s s' : σ}
    {member : MemberRecord} (h : (c.findOrCreateMember networkId requester now).run s = (.ok member, s')) :
    ∃ found, c.storage.getMember s networkId requester = .ok found ∧
      member = found.getD (newMember networkId requester now) := by
  obtain ⟨found, s₁, hread, hrest⟩ := Attempt.run_bind_eq_ok h
  obtain ⟨rfl, hfound⟩ := stored_eq_ok hread
  refine ⟨found, hfound, ?_⟩
  cases found with
  | some found =>
    cases hrest
    rfl
  | none =>
    obtain ⟨-, s₂, -, hrest⟩ := Attempt.run_bind_eq_ok hrest
    cases hrest
    rfl

/-- A record with the same grants. -/
def SameGrants (m m' : MemberRecord) : Prop := m'.tags = m.tags ∧ m'.capabilities = m.capabilities

/-- A record that is written and returned. -/
theorem written_eq_ok {m m' : MemberRecord} {s s' : σ}
    (h : (do storing fun s => c.storage.upsertMember s m; return m : Attempt σ Failure MemberRecord).run s =
      (.ok m', s')) : m' = m := by
  obtain ⟨-, s₁, -, hrest⟩ := Attempt.run_bind_eq_ok h
  cases hrest
  rfl

theorem applyPolicy_grants {network : NetworkRecord} {m m' : MemberRecord} {s s' : σ}
    (h : (c.applyPolicy network m).run s = (.ok m', s')) : SameGrants m m' := by
  unfold applyPolicy at h
  split at h
  · split at h
    · cases h
    · cases h
      exact ⟨rfl, rfl⟩
  · split at h
    · rw [written_eq_ok h]
      exact ⟨rfl, rfl⟩
    · cases h
      exact ⟨rfl, rfl⟩

theorem assignIp_grants {networkId : UInt64} {network : NetworkRecord} {m m' : MemberRecord} {s s' : σ}
    (h : (c.assignIp networkId network m).run s = (.ok m', s')) : SameGrants m m' := by
  unfold assignIp at h
  split at h
  · obtain ⟨pools, s₁, -, h⟩ := Attempt.run_bind_eq_ok h
    split at h
    · cases h
      exact ⟨rfl, rfl⟩
    · obtain ⟨assigned, s₂, -, h⟩ := Attempt.run_bind_eq_ok h
      split at h
      · cases h
        exact ⟨rfl, rfl⟩
      · rw [written_eq_ok h]
        exact ⟨rfl, rfl⟩
  · cases h
    exact ⟨rfl, rfl⟩

theorem issueConfig_credentials {networkId : UInt64} {requester : ByteVec 5} {network : NetworkRecord}
    {m : MemberRecord} {now : UInt64} {s s' : σ} {response : ConfigResponse}
    (h : (c.issueConfig pr networkId requester network m now).run s = (.ok response, s')) :
    response.credentials = c.credentials pr networkId requester network m now := by
  obtain ⟨routes, s₁, -, h⟩ := Attempt.run_bind_eq_ok h
  obtain ⟨base, s₂, -, h⟩ := Attempt.run_bind_eq_ok h
  obtain ⟨nodes, s₃, -, h⟩ := Attempt.run_bind_eq_ok h
  obtain ⟨members, s₄, -, h⟩ := Attempt.run_bind_eq_ok h
  obtain ⟨dictData, s₅, -, h⟩ := Attempt.run_bind_eq_ok h
  cases h
  rfl

/-- A request that is served issues what the record that was there is granted: what is
written on the way changes neither tags nor capabilities. -/
theorem handleConfigRequest_credentials {networkId : UInt64} {requester : ByteVec 5} {now : UInt64} {s s' : σ}
    {response : ConfigResponse} {network : NetworkRecord} {found : Option MemberRecord}
    (hserved : (c.handleConfigRequest pr networkId requester now).run s = (.ok response, s'))
    (hnetwork : c.storage.getNetwork s networkId = .ok (some network))
    (hmember : c.storage.getMember s networkId requester = .ok found) :
    ∃ m, SameGrants (found.getD (newMember networkId requester now)) m ∧
      response.credentials = c.credentials pr networkId requester network m now := by
  obtain ⟨network', s₁, hlookup, h⟩ := Attempt.run_bind_eq_ok hserved
  obtain ⟨rfl, hstored⟩ := lookupNetwork_eq_ok hlookup
  obtain rfl : network = network' := by simpa [hnetwork] using hstored
  obtain ⟨m₁, s₂, hfind, h⟩ := Attempt.run_bind_eq_ok h
  obtain ⟨found', hfound, hm₁⟩ := findOrCreateMember_eq_ok hfind
  obtain rfl : found = found' := by simpa [hmember] using hfound
  obtain ⟨m₂, s₃, hpolicy, h⟩ := Attempt.run_bind_eq_ok h
  obtain ⟨m₃, s₄, hassign, h⟩ := Attempt.run_bind_eq_ok h
  obtain ⟨m₄, s₅, hseen, h⟩ := Attempt.run_bind_eq_ok h
  have h₂ := applyPolicy_grants hpolicy
  have h₃ := assignIp_grants hassign
  have h₄ : m₄ = { m₃ with lastSeen := now } := written_eq_ok hseen
  refine ⟨m₄, ⟨?_, ?_⟩, issueConfig_credentials h⟩
  · rw [h₄, ← hm₁]
    exact h₃.1.trans h₂.1
  · rw [h₄, ← hm₁]
    exact h₃.2.trans h₂.2

end

end Engine

end Controller

/-! ### What is sent -/

namespace Service
open Controller
variable {pr : Primitives}

variable (pr) in
/-- The requester is sent one packet, in which it reads these credentials. -/
def CredentialsSent (n : Node) (requester : ByteVec 5) (credentials : NetworkCredentialsPayload) (secret : Secret)
    (fromAddr : SocketAddr) (n' : Node) : Prop :=
  ∃ sealed opened, n'.actions = n.actions ++ [.sendTo sealed fromAddr] ∧
    Salsa.dearmorPacket pr secret sealed = .ok opened ∧
    (PacketHeader.read opened).verb = Verb.networkCredentials.toByte ∧
    (PacketHeader.read opened).dest = requester ∧
    NetworkCredentialsPayload.deserialize (opened.drop Constants.minPacketLength) = .ok credentials

/-- Credentials that are well formed are sent if they fit the buffer. -/
theorem sendCredentials_sent {n n' : Node} {requester : ByteVec 5} {credentials : NetworkCredentialsPayload}
    {secret : Secret} {fromAddr : SocketAddr} (hcredentials : credentials.WellFormed)
    (h : sendCredentials pr n requester credentials secret fromAddr = .ok n') :
    CredentialsSent pr n requester credentials secret fromAddr n' := by
  obtain ⟨payload, hpayload, heq⟩ := bind_eq_ok h
  unfold credentialsPayload at hpayload
  split at hpayload
  · cases hpayload
  · obtain rfl := Except.ok.inj hpayload
    obtain rfl := Except.ok.inj heq
    obtain ⟨sealed, opened, harmor, hopen, hverb, hdest, hpayload⟩ := opens_encrypted pr secret n.allocatePacketId.1
      n.allocatePacketId.2.address requester .networkCredentials credentials.serialize
    refine ⟨sealed, opened, ?_, hopen, hverb, hdest, ?_⟩
    · simp only [Node.sendEncrypted, Node.sendArmored, harmor]
      rfl
    · rw [hpayload]
      exact NetworkCredentialsPayload.deserialize_serialize credentials hcredentials

/-- The credentials of a member are sent exactly when they fit their buffer. -/
theorem sendCredentials_sent_iff {σ : Type} (c : Engine σ) (networkId : UInt64) (requester : ByteVec 5)
    (network : NetworkRecord) (m : MemberRecord) (now : UInt64) (n : Node) (secret : Secret) (fromAddr : SocketAddr) :
    (∃ n', sendCredentials pr n requester (c.credentials pr networkId requester network m now) secret fromAddr = .ok n' ∧
      CredentialsSent pr n requester (c.credentials pr networkId requester network m now) secret fromAddr n') ↔
    185 + grantLength network m ≤ credentialsBufferSize := by
  set credentials := c.credentials pr networkId requester network m now with hcredentials
  have hlength : credentials.serialize.length = 185 + grantLength network m :=
    c.length_credentials pr networkId requester network m now
  constructor
  · rintro ⟨n', h, -⟩
    obtain ⟨payload, hpayload, -⟩ := bind_eq_ok h
    unfold credentialsPayload at hpayload
    split at hpayload
    · cases hpayload
    · omega
  · intro hfits
    have hpayload : credentialsPayload credentials = .ok credentials.serialize :=
      if_neg (by omega)
    have hwell : credentials.WellFormed := by
      have hcaps : credentials.capabilitiesRaw.length = _ :=
        c.length_capabilitiesRaw pr networkId requester network m now
      have htags : credentials.tagsRaw.length = _ := c.length_tagsRaw pr networkId requester m now
      unfold grantLength credentialsBufferSize at hfits
      refine ⟨?_, ?_, ?_, Nat.zero_le _, Nat.zero_le _⟩
      · intro com hcom
        obtain rfl := Option.some.inj hcom
        exact wellFormed_buildSignedCom pr c.signingKey c.address networkId now _
      · rw [hcaps, maxPrefixed]
        omega
      · rw [htags, maxPrefixed]
        omega
    have hsent : sendCredentials pr n requester credentials secret fromAddr =
        .ok (n.sendEncrypted pr requester .networkCredentials credentials.serialize secret fromAddr) := by
      rw [sendCredentials, hpayload]
      rfl
    exact ⟨_, hsent, sendCredentials_sent hwell hsent⟩

/-- A controller can deliver what it grants up to a size. What a request that is served
issues to a member is sent exactly when its tags, of 135 bytes each, and the capabilities
it is granted, of 139 bytes and their rules each, take at most 327 bytes. -/
theorem credentials_delivered_iff (pr : Primitives) {σ : Type} (c : Engine σ) (s s' : σ) (networkId : UInt64)
    (requester : ByteVec 5) (now : UInt64) (response : ConfigResponse) (network : NetworkRecord)
    (found : Option MemberRecord)
    (hserved : (c.handleConfigRequest pr networkId requester now).run s = (.ok response, s'))
    (hnetwork : c.storage.getNetwork s networkId = .ok (some network))
    (hmember : c.storage.getMember s networkId requester = .ok found) (n : Node) (secret : Secret)
    (fromAddr : SocketAddr) :
    (∃ n', sendCredentials pr n requester response.credentials secret fromAddr = .ok n' ∧
      CredentialsSent pr n requester response.credentials secret fromAddr n') ↔
    grantLength network (found.getD (newMember networkId requester now)) ≤ 327 := by
  obtain ⟨m, ⟨htags, hcaps⟩, hissued⟩ := Engine.handleConfigRequest_credentials hserved hnetwork hmember
  rw [hissued, sendCredentials_sent_iff, ← grantLength_congr network htags hcaps, credentialsBufferSize]
  omega

end Service

/-! ### Two tags and three -/

namespace Controller.SampleMembers

/-- A member with tags and no address. -/
def tagged (tags : List Tag) : InMemoryStorage where
  networks := [network]
  members := [{ member 2 [] with tags }]
  ipPools := []
  routes := []
  memberKeys := by simp

def tag (k : UInt32) : Tag := ⟨k, 7⟩

/-- Whatever its tags, it is served. -/
theorem served_tagged (tags : List Tag) : ∃ response s',
    (engine.handleConfigRequest Sample.primitives networkId (address 2) 1000).run (tagged tags) = (.ok response, s') := by
  have hnetwork : (tagged tags).view.network networkId = some network := rfl
  have hadmitted : network.isPrivate = true →
      ((tagged tags).view.requester networkId (address 2) 1000).authorized = true := fun _ => rfl
  obtain ⟨m, s', members, hserves, hview, hlists, hrun⟩ := Engine.handleConfigRequest_served (c := engine)
    InMemoryStorage.memory_faithful Sample.primitives hnetwork hadmitted
  obtain ⟨ips, hm, hassigns⟩ := hserves.record
  have hnone : m.ipAssignments = [] ∧ m.nodeId = address 2 := by
    rcases hassigns with ⟨hips, -⟩ | ⟨-, -, ip, hfree, -⟩
    · rw [hm, hips]
      exact ⟨rfl, rfl⟩
    · obtain ⟨earlier, pool, later, hpools, -⟩ := hfree
      simp [tagged, InMemoryStorage.view] at hpools
  have hmembers : ∀ m' ∈ members, m'.ipAssignments = [] ∧ m'.nodeId = address 2 := by
    intro m' hm'
    have hstored := (hlists.mem m').mp hm'
    rw [hview] at hstored
    by_cases hsame : networkId = m.networkId ∧ m'.nodeId = m.nodeId
    · rw [hsame.1, hsame.2, Store.member_setMember_self] at hstored
      rw [← Option.some.inj hstored]
      exact hnone
    · rw [Store.member_setMember_of_ne _ _ hsame] at hstored
      obtain ⟨hmem, -⟩ := InMemoryStorage.getMember_key hstored
      rw [List.mem_singleton.mp hmem]
      exact ⟨rfl, rfl⟩
  have hcount : members.length ≤ 1 := by
    have hsub : members.map MemberRecord.nodeId ⊆ [address 2] := by
      intro node hnode
      obtain ⟨m', hm', rfl⟩ := List.mem_map.mp hnode
      exact List.mem_singleton.mpr (hmembers m' hm').2
    simpa using (hlists.nodup.subperm hsub).length_le
  have hnoRoutes : ∀ r ∈ ([] : List ManagedRoute), ∃ e, managedEntry r = .ok e := by simp
  have hreadable : ∀ m' ∈ members, m'.eligible = true → m'.Readable := by
    intro m' hm' helig
    simp [MemberRecord.eligible, (hmembers m' hm').1] at helig
  obtain ⟨response, hissued⟩ := issued_ok engine Sample.primitives networkId (address 2) network 1000 (m := m)
    (by simp [hnone.1]) hnoRoutes (by omega) hreadable
  exact ⟨response, s', hrun.trans (by rw [← hissued]; rfl)⟩

end Controller.SampleMembers

namespace Service
open Controller SampleMembers

/-- A member with two tags gets its credentials. -/
theorem credentials_delivered_two : ∃ response s' n',
    (engine.handleConfigRequest Sample.primitives networkId (address 2) 1000).run (tagged [tag 1, tag 2]) =
      (.ok response, s') ∧
    sendCredentials Sample.primitives Sample.start (address 2) response.credentials (ByteVec.zero 48)
      (Sample.endpoint 20) = .ok n' ∧
    CredentialsSent Sample.primitives Sample.start (address 2) response.credentials (ByteVec.zero 48)
      (Sample.endpoint 20) n' := by
  obtain ⟨response, s', hserved⟩ := served_tagged [tag 1, tag 2]
  obtain ⟨n', hn', hsent⟩ := (credentials_delivered_iff Sample.primitives engine _ s' networkId (address 2) 1000
    response network (some { member 2 [] with tags := [tag 1, tag 2] }) hserved rfl rfl Sample.start
    (ByteVec.zero 48) (Sample.endpoint 20)).mpr (by decide)
  exact ⟨response, s', n', hserved, hn', hsent⟩

/-- Three tags do not fit the buffer. -/
theorem credentials_overflow : ¬ ∀ (pr : Primitives) (c : Engine InMemoryStorage) (s s' : InMemoryStorage)
    (networkId : UInt64) (requester : ByteVec 5) (now : UInt64) (response : ConfigResponse) (n : Node)
    (secret : Secret) (fromAddr : SocketAddr),
    (c.handleConfigRequest pr networkId requester now).run s = (.ok response, s') →
    ∃ n', sendCredentials pr n requester response.credentials secret fromAddr = .ok n' ∧
      CredentialsSent pr n requester response.credentials secret fromAddr n' := by
  intro hall
  obtain ⟨response, s', hserved⟩ := served_tagged [tag 1, tag 2, tag 3]
  have hsent := hall Sample.primitives engine _ s' networkId (address 2) 1000 response Sample.start
    (ByteVec.zero 48) (Sample.endpoint 20) hserved
  have hnetwork : engine.storage.getNetwork (tagged [tag 1, tag 2, tag 3]) networkId = .ok (some network) := rfl
  have hmember : engine.storage.getMember (tagged [tag 1, tag 2, tag 3]) networkId (address 2) =
      .ok (some { member 2 [] with tags := [tag 1, tag 2, tag 3] }) := rfl
  obtain ⟨m, ⟨htags, hcaps⟩, hissued⟩ := Engine.handleConfigRequest_credentials hserved hnetwork hmember
  rw [hissued, sendCredentials_sent_iff, grantLength_congr network htags hcaps] at hsent
  revert hsent
  decide

end Service

end ManyTier
