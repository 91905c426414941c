import ManyTier.Controller.Authorization
import ManyTier.Node.Vl2

/-! Whom a node trusts after a configuration.

The certificates of one configuration are built at one time for one network and signed by
one controller, so each agrees with the node's own and verifies. A node that has applied
what a request returned therefore trusts the members that are listed, but for itself, and
no others (`issued_trusted`). -/
namespace ManyTier.Controller

/-! ### Certificates of one configuration -/

section
variable (pr : Primitives) (signingKey : ByteVec 32) (controllerAddress : ByteVec 5)
  (networkId issuedTo issuedTo' timestamp : UInt64)

/-- Two certificates of one time and network agree, whoever they are for. -/
theorem buildSignedCom_agrees :
    peerComAgreesWith (buildSignedCom pr signingKey controllerAddress networkId issuedTo timestamp)
      (buildSignedCom pr signingKey controllerAddress networkId issuedTo' timestamp) = true := by
  simp [peerComAgreesWith, buildSignedCom, comQualifiers, absDiff]

/-- A certificate is signed over its qualifiers as they stand. -/
theorem comSignedData_buildSignedCom :
    comSignedData (buildSignedCom pr signingKey controllerAddress networkId issuedTo timestamp) =
      (comQualifiers networkId issuedTo timestamp).flatMap CertificateOfMembership.serializeQualifier := by
  rw [comSignedData]
  congr 1

theorem comVerifySignature_buildSignedCom (hverify : Signing.VerifiesOwn pr) :
    comVerifySignature pr (buildSignedCom pr signingKey controllerAddress networkId issuedTo timestamp)
      (pr.ed25519Public signingKey) = true := by
  rw [comVerifySignature, comSignedData_buildSignedCom, buildSignedCom, Signing.verify_sign hverify]
  rfl

end

/-! ### Configurations that can be built -/

/-- A configuration can be built for a member with valid assignments, unless a managed
route makes the reader of addresses fault. -/
theorem buildNetworkConfig_ok (network : NetworkRecord) {member : MemberRecord} {routes : List ManagedRoute}
    (com : CertificateOfMembership) (now : UInt64) (capabilitiesRaw tagsRaw : Bytes)
    (hvalid : ∀ a ∈ member.ipAssignments, ValidAssignment a) (hroutes : ∀ r ∈ routes, ∃ e, managedEntry r = .ok e) :
    ∃ base, buildNetworkConfig network member routes com now capabilitiesRaw tagsRaw = .ok base := by
  obtain ⟨inets, hips, -⟩ := serializeIpAssignments_valid hvalid
  obtain ⟨explicit, hexplicit⟩ := collect_returns_iff.mpr hroutes
  obtain ⟨derived, hderived⟩ : ∃ derived, collect derivedEntry member.ipAssignments = .ok derived := by
    refine collect_returns_iff.mpr fun a ha => ?_
    obtain ⟨e, he⟩ := derivedEntry_valid (hvalid a ha)
    exact ⟨some e, he⟩
  have hrouteData : serializeRoutes routes member.ipAssignments =
      .ok ((explicit ++ derived).flatMap RouteEntry.serialize) := by
    simp only [serializeRoutes, routeEntries, hexplicit, hderived, ok_bind]
    rfl
  unfold buildNetworkConfig networkConfigEntries
  simp only [hips, hrouteData, ok_bind, pure, Except.pure]
  split
  · exact ⟨_, rfl⟩
  · exact ⟨_, rfl⟩

/-- An assigned address is a valid assignment. -/
theorem valid_assignmentOf (ip : ByteVec 4) : ValidAssignment (assignmentOf ip) := by
  have hsplit : splitOnce slash (assignmentOf ip).bytes = some (formatIpv4 ip, ascii ['2', '4']) :=
    splitOnce_append (slash_notMem_formatIpv4 ip) _
  have hbits : parseU8 (ascii ['2', '4']) = some 24 := by decide
  have hparsed : parseIpPrefix (assignmentOf ip).bytes = some (formatIpv4 ip, 24) := by
    rw [parseIpPrefix, hsplit]
    simp only [hbits, Option.map_some]
  have hinet : assignmentInet (assignmentOf ip) = .ok (some (.v4 ip 24)) := by
    rw [assignmentInet, hparsed]
    simp only [parseInet, parseIpv4_formatIpv4]
    rfl
  exact ⟨_, _, hinet, rfl⟩

/-! ### A node that applies a configuration -/

theorem findNetwork_applyNetworkConfig {n : Node} {networkId : UInt64} {net : NetworkMembership}
    (h : n.findNetwork networkId = some net) (data : Bytes) :
    (n.applyNetworkConfig networkId data).findNetwork networkId = some (net.applyDictionary n.address data) :=
  Node.findNetwork_modifyNetwork h fun net => net.networkId_applyDictionary n.address data

/-- A node that knows the controller of a network: its identity is among the peers. -/
structure KnowsController (pr : Primitives) (n : Node) (networkId : UInt64) (address : Address)
    (signingKey : ByteVec 32) : Prop where
  controller : controllerAddressFromNetworkId networkId = address.bytes
  peer : ∃ peer, n.topology.getPeer address.bytes = some peer ∧
    peer.identity.publicKey.signing = pr.ed25519Public signingKey

theorem KnowsController.verifyingKey {pr : Primitives} {n : Node} {networkId : UInt64} {address : Address}
    {signingKey : ByteVec 32} (h : KnowsController pr n networkId address signingKey)
    (hpoint : ∀ key, pr.ed25519Point (pr.ed25519Public key) = true) :
    n.controllerVerifyingKey pr networkId = some (pr.ed25519Public signingKey) := by
  obtain ⟨peer, hpeer, hkey⟩ := h.peer
  rw [Node.controllerVerifyingKey, h.controller, hpeer]
  simp [hkey, hpoint]

section
variable {pr : Primitives} {signingKey : ByteVec 32} {controller : Address} {networkId now : UInt64}

/-- A certificate is filed for every listed member but the node itself, and each is the one
that was built for its member. -/
theorem storedCom_filedComs {net : NetworkMembership} {members : List MemberRecord} {ourAddress : ByteVec 5}
    (hfiled : net.peerComs = filedComs pr signingKey controller networkId now ourAddress members) (other : ByteVec 5) :
    (∀ com, Vl2.storedCom net other = some com → ∃ m ∈ members, m.nodeId = other ∧ other ≠ ourAddress ∧
        com = memberCom pr signingKey controller.bytes networkId now m) ∧
      (∀ m ∈ members, m.nodeId = other → other ≠ ourAddress → (Vl2.storedCom net other).isSome) := by
  constructor
  · intro com hcom
    obtain ⟨entry, hfound, rfl⟩ := Option.map_eq_some_iff.mp hcom
    have hentry := List.mem_of_find?_eq_some hfound
    have haddress : entry.1 = other := by simpa using List.find?_some hfound
    rw [hfiled] at hentry
    obtain ⟨m, hm, rfl⟩ := List.mem_map.mp hentry
    obtain ⟨hm, hours⟩ := List.mem_filter.mp hm
    obtain rfl : m.nodeId = other := haddress
    exact ⟨m, hm, rfl, by simpa using hours, rfl⟩
  · intro m hm hnode hours
    rw [Vl2.storedCom, Option.isSome_map, List.find?_isSome, hfiled]
    refine ⟨(m.nodeId, memberCom pr signingKey controller.bytes networkId now m), ?_, by simpa using hnode⟩
    exact List.mem_map.mpr ⟨m, List.mem_filter.mpr ⟨hm, by simpa [hnode] using hours⟩, rfl⟩

/-- A node that holds a certificate of its own from the controller, and those of some
members, trusts these members. -/
theorem hasPeerCom_filedComs (hverify : Signing.VerifiesOwn pr) {n : Node} {net : NetworkMembership}
    {members : List MemberRecord} {ourAddress : ByteVec 5} {issuedTo : UInt64}
    (hcontroller : controllerAddressFromNetworkId networkId = controller.bytes)
    (hkey : n.controllerVerifyingKey pr networkId = some (pr.ed25519Public signingKey))
    (hfound : n.findNetwork networkId = some net)
    (hours : net.ourCom = some (buildSignedCom pr signingKey controller.bytes networkId issuedTo now))
    (hcoms : net.peerComs = filedComs pr signingKey controller networkId now ourAddress members)
    (other : ByteVec 5) :
    Vl2.hasPeerCom pr n networkId other = true ↔ other ≠ ourAddress ∧ ∃ m ∈ members, m.nodeId = other := by
  obtain rfl : net.networkId = networkId := by simpa using List.find?_some hfound
  obtain ⟨hstored, hfiled⟩ := storedCom_filedComs hcoms other
  rw [Vl2.hasPeerCom, hfound]
  simp only
  constructor
  · intro htrue
    cases hother : Vl2.storedCom net other with
    | none =>
      rw [hother] at htrue
      cases htrue
    | some peerCom =>
      obtain ⟨m, hm, hnode, hne, -⟩ := hstored peerCom hother
      exact ⟨hne, m, hm, hnode⟩
  · rintro ⟨hne, m, hm, hnode⟩
    obtain ⟨peerCom, hpeer⟩ := Option.isSome_iff_exists.mp (hfiled m hm hnode hne)
    obtain ⟨m', -, -, -, rfl⟩ := hstored peerCom hpeer
    rw [hpeer, hkey]
    simp only [NetworkMembership.verifyPeerCom, hours]
    have hagrees := buildSignedCom_agrees pr signingKey controller.bytes net.networkId issuedTo
      (ztAddressToU64 m'.nodeId) now
    have hsigned := comVerifySignature_buildSignedCom pr signingKey controller.bytes net.networkId
      (ztAddressToU64 m'.nodeId) now hverify
    have hsigner : (memberCom pr signingKey controller.bytes net.networkId now m').signerAddress =
        controllerAddressFromNetworkId net.networkId := hcontroller.symm
    rw [memberCom] at hsigner ⊢
    rw [hagrees, hsigned]
    simpa using hsigner

/-- What a node makes of a configuration that was issued to it. -/
theorem trusted_of_config (hverify : Signing.VerifiesOwn pr)
    (hpoint : ∀ key, pr.ed25519Point (pr.ed25519Public key) = true) {network : NetworkRecord} {m : MemberRecord}
    {routes : List ManagedRoute} {capabilitiesRaw tagsRaw base data : Bytes} {members : List MemberRecord}
    {issuedTo : UInt64}
    (hbase : buildNetworkConfig network m routes
      (buildSignedCom pr signingKey controller.bytes networkId issuedTo now) now capabilitiesRaw tagsRaw = .ok base)
    (hdata : appendPeerDirectory pr signingKey controller.bytes networkId now base members = .ok data)
    (hcount : members.length ≤ 65535) (hreadable : ∀ m ∈ members, m.eligible = true → m.Readable)
    {n : Node} (hknows : KnowsController pr n networkId controller signingKey) {net : NetworkMembership}
    (hjoined : n.findNetwork networkId = some net) :
    ∃ net', (n.applyNetworkConfig networkId data).findNetwork networkId = some net' ∧
      net'.members = (members.filter MemberRecord.eligible).filterMap (MemberRecord.listed networkId) ∧
      ∀ other, Vl2.hasPeerCom pr (n.applyNetworkConfig networkId data) networkId other = true ↔
        other ≠ n.address ∧ ∃ m ∈ members, m.eligible = true ∧ m.nodeId = other := by
  obtain ⟨entries, directory, hentries, rfl, rfl⟩ := issued_config pr signingKey controller hbase hdata
  have hplain := plainKeys_addBinary (plainKeys_config hentries) directory
  obtain ⟨data', hdata', hdecode⟩ := peerDirectory_readable pr signingKey controller networkId now n.address
    (plainKeys_config hentries) (no_directory_config hentries) hcount hreadable
  obtain rfl := Except.ok.inj (hdata.symm.trans hdata')
  set dict := Dictionary.addBinary entries Key.peerDirectory directory with hdict
  set com := buildSignedCom pr signingKey controller.bytes networkId issuedTo now with hcom
  have hread := Dictionary.deserialize_serialize dict hplain
  obtain rfl : net.networkId = networkId := by simpa using List.find?_some hjoined
  rw [peerDirectoryFromDictData_eq hread] at hdecode
  have hours : dict.ourCom = some com := by
    have hcomRead := com.deserialize_serialize
      (wellFormed_buildSignedCom pr signingKey controller net.networkId now issuedTo) []
    rw [List.append_nil] at hcomRead
    rw [Dictionary.ourCom, getBinary_com hentries directory, Option.bind_some, hcomRead]
    rfl
  have hupdate := net.applyDictionary_eq_update n.address hread
  have hfound := findNetwork_applyNetworkConfig hjoined dict.serialize
  rw [hupdate] at hfound
  set net' := net.update (dict.content net.networkId n.address) with hnet'
  have hmembers : net'.members =
      (members.filter MemberRecord.eligible).filterMap (MemberRecord.listed net.networkId) := by
    show ((dict.directory net.networkId n.address).map PeerDirectory.members).getD net.members = _
    rw [hdecode]
    rfl
  have hcoms : net'.peerComs = filedComs pr signingKey controller net.networkId now n.address
      (members.filter MemberRecord.eligible) := by
    show ((dict.directory net.networkId n.address).map PeerDirectory.peerComs).getD net.peerComs = _
    rw [hdecode]
    rfl
  have hourCom : net'.ourCom = some com := by
    show dict.ourCom.or net.ourCom = _
    rw [hours]
    rfl
  have hkey : (n.applyNetworkConfig net.networkId dict.serialize).controllerVerifyingKey pr net.networkId =
      some (pr.ed25519Public signingKey) := hknows.verifyingKey hpoint
  refine ⟨net', hfound, hmembers, fun other => ?_⟩
  rw [hasPeerCom_filedComs hverify hknows.controller hkey hfound hourCom hcoms]
  simp only [List.mem_filter, and_assoc]

end

/-! ### A node that is served -/

/-- At most so many members of a network. -/
def Store.AtMost (st : Store) (networkId : UInt64) (count : Nat) : Prop :=
  ∀ nodes : List (ByteVec 5), nodes.Nodup → (∀ node ∈ nodes, (st.member networkId node).isSome) → nodes.length ≤ count

/-- The members of a network that are authorised and have an assignment. -/
def Store.Eligible (st : Store) (networkId : UInt64) (m : MemberRecord) : Prop :=
  st.member networkId m.nodeId = some m ∧ m.authorized = true ∧ m.ipAssignments ≠ []

/-- Every assignment on a network is valid. -/
def Store.ValidAssignments (st : Store) (networkId : UInt64) : Prop :=
  ∀ node m, st.member networkId node = some m → ∀ a ∈ m.ipAssignments, ValidAssignment a

namespace Store.Lists
variable {st : Store} {networkId : UInt64} {members : List MemberRecord} (h : st.Lists networkId members)
  (hvalid : st.ValidAssignments networkId)
include h hvalid

theorem valid : ∀ m ∈ members, ∀ a ∈ m.ipAssignments, ValidAssignment a :=
  fun m hm => hvalid m.nodeId m ((h.mem m).mp hm)

theorem readable : ∀ m ∈ members, m.eligible = true → m.Readable :=
  fun m hm _ => readable_of_valid (valid h hvalid m hm)

end Store.Lists

/-- A member under its own MAC and the first of its addresses of each family. -/
structure MemberRecord.Shown (m : MemberRecord) (networkId : UInt64) (l : NetworkMember) : Prop where
  ztAddress : l.ztAddress = m.nodeId
  mac : l.mac = Ethernet.deriveMac m.nodeId networkId
  ipv4 : l.ipv4.map Prod.fst = m.ipv4s.head?
  ipv6 : l.ipv6.map Prod.fst = m.ipv6s.head?

theorem shown_of_listed {m : MemberRecord} {networkId : UInt64} {l : NetworkMember}
    (hvalid : ∀ a ∈ m.ipAssignments, ValidAssignment a) (h : m.listed networkId = some l) : m.Shown networkId l := by
  obtain ⟨l', hl', hipv4, hipv6⟩ := listed_of_valid hvalid networkId
  obtain rfl := Option.some.inj (h.symm.trans hl')
  refine ⟨ztAddress_listed networkId h, ?_, hipv4, hipv6⟩
  obtain ⟨ipv4, -, hrest⟩ := Option.bind_eq_some_iff.mp h
  obtain ⟨ipv6, -, hl⟩ := Option.bind_eq_some_iff.mp hrest
  rw [← Option.some.inj hl]
  rfl

/-- A node that trusts the members of a network that are to be trusted, but for itself,
and lists each of them once, itself among them. -/
structure Follows (pr : Primitives) (n : Node) (networkId : UInt64) (st : Store) : Prop where
  trusted : ∀ other, Vl2.hasPeerCom pr n networkId other = true ↔
    other ≠ n.address ∧ ∃ m, st.Eligible networkId m ∧ m.nodeId = other
  listed : ∃ net, n.findNetwork networkId = some net ∧ (net.members.map NetworkMember.ztAddress).Nodup ∧
    (∀ m, st.Eligible networkId m → ∃ l ∈ net.members, m.Shown networkId l) ∧
    ∀ l ∈ net.members, ∃ m, st.Eligible networkId m ∧ m.Shown networkId l

/-- Members listed from records with a key each have a key each. -/
theorem nodup_listed {members : List MemberRecord} (networkId : UInt64)
    (h : (members.map MemberRecord.nodeId).Nodup) :
    ((members.filterMap (MemberRecord.listed networkId)).map NetworkMember.ztAddress).Nodup := by
  have hsub : ((members.filterMap (MemberRecord.listed networkId)).map NetworkMember.ztAddress).Sublist
      (members.map MemberRecord.nodeId) := by
    induction members with
    | nil => exact .refl _
    | cons m rest ih =>
      have ih := ih (List.nodup_cons.mp h).2
      cases hlisted : m.listed networkId with
      | none => simpa [List.filterMap_cons, hlisted] using ih.cons m.nodeId
      | some l => simpa [hlisted, ztAddress_listed networkId hlisted] using ih
  exact hsub.nodup h

section
variable {σ : Type} {c : Engine σ} {pr : Primitives} {view : σ → Store}

/-- Serving a member leaves assignments valid. -/
theorem Store.Serves.validAssignments {st : Store} {networkId now : UInt64} {node : ByteVec 5}
    {network : NetworkRecord} {m : MemberRecord} (h : st.Serves networkId node now network m)
    (hvalid : st.ValidAssignments networkId) : (st.setMember m).ValidAssignments networkId := by
  have hrequester : ∀ a ∈ (st.requester networkId node now).ipAssignments, ValidAssignment a := by
    rw [Store.requester]
    cases hmember : st.member networkId node with
    | none =>
      intro a ha
      cases ha
    | some m₀ => exact hvalid node m₀ hmember
  have hserved : ∀ a ∈ m.ipAssignments, ValidAssignment a := by
    obtain ⟨ips, rfl, hassigns⟩ := h.record
    rcases hassigns with ⟨rfl, -⟩ | ⟨-, -, ip, -, rfl⟩
    · exact hrequester
    · intro a ha
      obtain rfl := List.mem_singleton.mp ha
      exact valid_assignmentOf ip
  intro other m' hm'
  by_cases hsame : networkId = m.networkId ∧ other = m.nodeId
  · obtain ⟨rfl, rfl⟩ := hsame
    rw [st.member_setMember_self] at hm'
    rw [← Option.some.inj hm']
    exact hserved
  · rw [st.member_setMember_of_ne m hsame] at hm'
    exact hvalid other m' hm'

/-- A configuration is issued to a member with valid assignments, unless a managed route
makes the reader of addresses fault. -/
theorem issued_ok (c : Engine σ) (pr : Primitives) (networkId : UInt64) (requester : ByteVec 5)
    (network : NetworkRecord) (now : UInt64) {m : MemberRecord} {routes : List ManagedRoute}
    {members : List MemberRecord} (hvalid : ∀ a ∈ m.ipAssignments, ValidAssignment a)
    (hroutes : ∀ r ∈ routes, ∃ e, managedEntry r = .ok e) (hcount : members.length ≤ 65535)
    (hreadable : ∀ m ∈ members, m.eligible = true → m.Readable) :
    ∃ response, c.issued pr networkId requester network m now routes members = .ok response := by
  obtain ⟨base, hbase⟩ := buildNetworkConfig_ok network
    (buildSignedCom pr c.signingKey c.address.bytes networkId (ztAddressToU64 requester) now) now
    (c.capabilitiesRaw pr networkId requester network m now) (c.tagsRaw pr networkId requester m now) hvalid hroutes
  obtain ⟨entries, hentries, heq⟩ := bind_eq_ok hbase
  obtain rfl := Except.ok.inj heq
  obtain ⟨data, hdata, -⟩ := peerDirectory_readable pr c.signingKey c.address networkId now requester
    (plainKeys_config hentries) (no_directory_config hentries) hcount hreadable
  have hok : (Except.ok entries.serialize : Except Fault Bytes).mapError Failure.fault = .ok entries.serialize := rfl
  rw [Engine.issued, hbase, hok, ok_bind, hdata, ok_bind]
  exact ⟨_, rfl⟩

/-- A node that applies a configuration with the directory of a network's members follows
them. -/
theorem follows_of_config (hverify : Signing.VerifiesOwn pr)
    (hpoint : ∀ key, pr.ed25519Point (pr.ed25519Public key) = true) {signingKey : ByteVec 32} {controller : Address}
    {network : NetworkRecord} {m : MemberRecord} {routes : List ManagedRoute}
    {capabilitiesRaw tagsRaw base data : Bytes} {members : List MemberRecord} {networkId now issuedTo : UInt64}
    {st : Store} (hlists : st.Lists networkId members) (hvalid : st.ValidAssignments networkId)
    (hcount : members.length ≤ 65535)
    (hbase : buildNetworkConfig network m routes
      (buildSignedCom pr signingKey controller.bytes networkId issuedTo now) now capabilitiesRaw tagsRaw = .ok base)
    (hdata : appendPeerDirectory pr signingKey controller.bytes networkId now base members = .ok data)
    {n : Node} (hknows : KnowsController pr n networkId controller signingKey) {net : NetworkMembership}
    (hjoined : n.findNetwork networkId = some net) : Follows pr (n.applyNetworkConfig networkId data) networkId st := by
  obtain ⟨net', hnet', hmembers, htrusted⟩ :=
    trusted_of_config hverify hpoint hbase hdata hcount (hlists.readable hvalid) hknows hjoined
  have heligible : ∀ m', st.Eligible networkId m' ↔ m' ∈ members ∧ m'.eligible = true := by
    intro m'
    rw [Store.Eligible, hlists.mem]
    simp [MemberRecord.eligible]
  refine ⟨fun other => ?_, net', hnet', ?_, ?_, ?_⟩
  · rw [htrusted]
    simp only [heligible, and_assoc]
    rfl
  · rw [hmembers]
    exact nodup_listed networkId (hlists.nodup.sublist (List.filter_sublist.map _))
  · intro m' hm'
    obtain ⟨hm', helig⟩ := (heligible m').mp hm'
    have hvalid' := hlists.valid hvalid m' hm'
    obtain ⟨l, hl, -⟩ := listed_of_valid hvalid' networkId
    refine ⟨l, ?_, shown_of_listed hvalid' hl⟩
    rw [hmembers]
    exact List.mem_filterMap.mpr ⟨m', List.mem_filter.mpr ⟨hm', helig⟩, hl⟩
  · intro l hl
    rw [hmembers] at hl
    obtain ⟨m', hm', hl⟩ := List.mem_filterMap.mp hl
    obtain ⟨hm', helig⟩ := List.mem_filter.mp hm'
    exact ⟨m', (heligible m').mpr ⟨hm', helig⟩, shown_of_listed (hlists.valid hvalid m' hm') hl⟩

/-- After a request of an authorised member, a node of its address that knows the
controller and applies what was returned trusts exactly the other members that are
authorised and have an assignment, and lists exactly the members that are. There is
nothing to apply only where the text of a managed route makes the reader of addresses
fault. -/
theorem issued_trusted (hf : Faithful c.storage view) (hverify : Signing.VerifiesOwn pr)
    (hpoint : ∀ key, pr.ed25519Point (pr.ed25519Public key) = true) {s : σ} {n : Node} {networkId : UInt64}
    {network : NetworkRecord} (hnetwork : (view s).network networkId = some network)
    (hauthorized : (view s).Authorized networkId n.address) (hvalid : (view s).ValidAssignments networkId)
    (hcount : (view s).AtMost networkId 65535) (hjoined : (n.findNetwork networkId).isSome)
    (hknows : KnowsController pr n networkId c.address c.signingKey) (now : UInt64) :
    (∃ r ∈ (view s).routes networkId, ∃ f, managedEntry r = .error f) ∨
    ∃ response s', (c.handleConfigRequest pr networkId n.address now).run s = (.ok response, s') ∧
      (∀ other, other ≠ n.address → (view s').member networkId other = (view s).member networkId other) ∧
      Follows pr (n.applyNetworkConfig networkId response.config.dictData) networkId (view s') := by
  by_cases hroutes : ∀ r ∈ (view s).routes networkId, ∃ e, managedEntry r = .ok e
  case neg =>
    refine .inl ?_
    simp only [not_forall, not_exists] at hroutes
    obtain ⟨r, hr, hbad⟩ := hroutes
    cases hentry : managedEntry r with
    | error f => exact ⟨r, hr, f, hentry⟩
    | ok e => exact absurd hentry (hbad e)
  refine .inr ?_
  have hadmitted : network.isPrivate = true → ((view s).requester networkId n.address now).authorized = true :=
    fun _ => Store.authorized_requester.mpr hauthorized
  obtain ⟨m, s', members, hserves, hview, hlists, hrun⟩ := Engine.handleConfigRequest_served hf pr hnetwork hadmitted
  have hvalid' := hserves.validAssignments hvalid
  rw [← hview] at hvalid'
  obtain ⟨hid, hnode⟩ : m.networkId = networkId ∧ m.nodeId = n.address := by
    obtain ⟨ips, rfl, -⟩ := hserves.record
    exact (hf.keyed s).requester networkId n.address now
  have hsame : ∀ other, other ≠ n.address → (view s').member networkId other = (view s).member networkId other := by
    intro other hother
    rw [hview, (view s).member_setMember_of_ne m]
    rw [hnode]
    exact fun h => hother h.2
  have hsmall : members.length ≤ 65535 := by
    rw [← List.length_map MemberRecord.nodeId]
    refine hcount _ hlists.nodup fun node hin => ?_
    obtain ⟨m', hm', rfl⟩ := List.mem_map.mp hin
    by_cases hrequester : m'.nodeId = n.address
    · obtain ⟨m₀, hm₀, -⟩ := hauthorized
      rw [hrequester, hm₀]
      rfl
    · rw [← hsame _ hrequester, (hlists.mem m').mp hm']
      rfl
  have hown : (view s').member networkId n.address = some m := by
    rw [hview, ← hid, ← hnode, Store.member_setMember_self]
  obtain ⟨response, hissued⟩ := issued_ok c pr networkId n.address network now (hvalid' n.address m hown) hroutes
    hsmall (hlists.readable hvalid')
  obtain ⟨base, hbase, hdata⟩ := issued_eq_ok hissued
  obtain ⟨net, hnet⟩ := Option.isSome_iff_exists.mp hjoined
  exact ⟨response, s', by rw [hrun, hissued], hsame,
    follows_of_config hverify hpoint hlists hvalid' hsmall hbase hdata hknows hnet⟩

end

namespace SampleMembers

/-- A network with two members. -/
def twoMembers : InMemoryStorage where
  networks := [network]
  members := [member 2 [ipv4], member 4 [otherIpv4]]
  ipPools := []
  routes := []
  memberKeys := by decide

/-- Party number 2, who knows the controller and has joined the network. -/
def guest : Node :=
  { Sample.start with
    identity := Sample.identity 2
    topology := Topology.new.addPeer { Sample.identity 1 with secret := none }
    networks := [fresh] }

theorem mem_twoMembers {node : ByteVec 5} {m : MemberRecord} (h : twoMembers.view.member networkId node = some m) :
    m ∈ [member 2 [ipv4], member 4 [otherIpv4]] ∧ m.nodeId = node := by
  obtain ⟨hmem, -, hnode⟩ := InMemoryStorage.getMember_key h
  exact ⟨hmem, hnode⟩

theorem twoMembers_validAssignments : twoMembers.view.ValidAssignments networkId := by
  intro node m hm
  obtain ⟨hmem, -⟩ := mem_twoMembers hm
  rcases List.mem_pair.mp hmem with rfl | rfl
  · simpa [member] using valid_ipv4
  · simpa [member] using valid_otherIpv4

theorem twoMembers_atMost : twoMembers.view.AtMost networkId 65535 := by
  intro nodes hnodup hnodes
  have hsub : nodes ⊆ [address 2, address 4] := by
    intro node hnode
    obtain ⟨m, hm⟩ := Option.isSome_iff_exists.mp (hnodes node hnode)
    obtain ⟨hmem, rfl⟩ := mem_twoMembers hm
    rcases List.mem_pair.mp hmem with rfl | rfl
    · exact List.mem_cons_self
    · exact List.mem_cons_of_mem _ List.mem_cons_self
  have hle := (hnodup.subperm hsub).length_le
  simp at hle
  omega

theorem guest_knows : KnowsController Sample.primitives guest networkId engine.address engine.signingKey :=
  ⟨by decide, _, rfl, rfl⟩

end SampleMembers

open SampleMembers in
/-- A member that asks trusts the other member, and nobody else. -/
theorem issued_trusted_two : ∃ response s',
    (engine.handleConfigRequest Sample.primitives networkId (address 2) 1000).run twoMembers = (.ok response, s') ∧
    Vl2.hasPeerCom Sample.primitives (guest.applyNetworkConfig networkId response.config.dictData) networkId
      (address 4) = true := by
  have hauthorized : twoMembers.view.Authorized networkId guest.address := ⟨member 2 [ipv4], by decide, rfl⟩
  have htrusted := issued_trusted (c := engine) (n := guest) InMemoryStorage.memory_faithful Sample.verifiesOwn
    (fun _ => rfl) (show twoMembers.view.network networkId = some network from rfl) hauthorized twoMembers_validAssignments
    twoMembers_atMost rfl guest_knows 1000
  rcases htrusted with ⟨r, hr, -⟩ | ⟨response, s', hrun, hsame, hfollows⟩
  · cases hr
  · have haddress : guest.address = address 2 := rfl
    rw [haddress] at hrun
    have hne : address 4 ≠ guest.address := by decide
    refine ⟨response, s', hrun, (hfollows.trusted _).mpr ⟨hne, member 4 [otherIpv4], ⟨?_, rfl, by decide⟩, rfl⟩⟩
    exact (hsame (address 4) hne).trans (by decide)

end ManyTier.Controller
