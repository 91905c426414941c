import ManyTier.Controller.ConfigBuilder
import ManyTier.Crypto.Sample
import ManyTier.Node.ConfigContent

/-! The directory of members in a configuration.

Each entry is a node id, an IPv4 and an IPv6 address or a zero byte where there is none,
and a certificate, with no length in front. An assignment that cannot be read is written
as nothing at all, so the node finds the next field where the address should be. That
field never starts like an address of the family it is looking for: the directory is
lost as a whole (`peerDirectory_complete_iff`). -/
namespace ManyTier.Controller

inductive ControllerError where
  | networkNotFound
  | memberNotAuthorized
  | noAvailableIp
  | storageError (message : Bytes)
  deriving DecidableEq

/-- Why a call returned nothing: with an error, or it did not return. -/
inductive Failure where
  | error (e : ControllerError)
  | fault (f : Fault)
  deriving DecidableEq

/-! ### Certificates -/

section
variable (pr : Primitives) (signingKey : ByteVec 32) (controllerAddress : ByteVec 5) (networkId : UInt64)

/-- A time with six minutes around it, the network, and the member, about whom two
certificates may differ by any amount. -/
def comQualifiers (networkId issuedTo timestamp : UInt64) : List ComQualifier :=
  [⟨0, timestamp, 360000⟩, ⟨1, networkId, 0⟩, ⟨2, issuedTo, 0xffffffffffffffff⟩]

def buildSignedCom (issuedTo timestamp : UInt64) : CertificateOfMembership where
  issuedTo := u64ToZtAddress issuedTo
  qualifiers := comQualifiers networkId issuedTo timestamp
  signerAddress := controllerAddress
  signature := Signing.sign pr signingKey
    ((comQualifiers networkId issuedTo timestamp).flatMap CertificateOfMembership.serializeQualifier)

variable {controllerAddress} in
/-- What a controller signs reads back. -/
theorem wellFormed_signedCom (hcontroller : controllerAddress ≠ ByteVec.zero 5) (networkId issuedTo timestamp : UInt64) :
    (buildSignedCom pr signingKey controllerAddress networkId issuedTo timestamp).WellFormed where
  issued := rfl
  unsigned := fun h => absurd h hcontroller
  count := by
    show 3 < 2 ^ 16
    decide

/-! ### Entries -/

/-- An assignment in two parts; a prefix length that cannot be read is that of a whole
address. -/
def assignmentParts (assignment : Text) : Bytes × UInt8 :=
  let (ip, bits) := match splitOnce slash assignment.bytes with
    | some (ip, bits) => (ip, parseU8 bits)
    | none => (assignment.bytes, none)
  (ip, bits.getD (if ip.contains colon then 128 else 32))

def serializeAssignmentInet : Option Text → Except Fault Bytes
  | none => .ok [0x00]
  | some assignment => serializeInetAddress (assignmentParts assignment).1 (assignmentParts assignment).2

/-- The assignments a member is listed under: its first without a colon and its first
with one. -/
def MemberRecord.firstIpv4 (m : MemberRecord) : Option Text :=
  m.ipAssignments.find? fun assignment => ! assignment.bytes.contains colon

def MemberRecord.firstIpv6 (m : MemberRecord) : Option Text :=
  m.ipAssignments.find? fun assignment => assignment.bytes.contains colon

/-- A member that is listed. -/
def MemberRecord.eligible (m : MemberRecord) : Bool := m.authorized && ! m.ipAssignments.isEmpty

variable (now : UInt64)

def memberCom (m : MemberRecord) : CertificateOfMembership :=
  buildSignedCom pr signingKey controllerAddress networkId (ztAddressToU64 m.nodeId) now

def serializeDirectoryEntry (m : MemberRecord) : Except Fault Bytes := do
  let ipv4 ← serializeAssignmentInet m.firstIpv4
  let ipv6 ← serializeAssignmentInet m.firstIpv6
  return m.nodeId.toBytes ++
    (ipv4 ++ (ipv6 ++ (memberCom pr signingKey controllerAddress networkId now m).serialize))

def serializeDirectoryEntries : List MemberRecord → Except Fault Bytes
  | [] => .ok []
  | m :: rest => do
    let entry ← serializeDirectoryEntry pr signingKey controllerAddress networkId now m
    let entries ← serializeDirectoryEntries rest
    return entry ++ entries

/-- The number of entries, of which the low 16 bits are sent, and the entries. -/
def serializePeerDirectory (members : List MemberRecord) : Except Fault Bytes := do
  let eligible := members.filter MemberRecord.eligible
  let entries ← serializeDirectoryEntries pr signingKey controllerAddress networkId now eligible
  return be16 (UInt16.ofNat eligible.length) ++ entries

def dictionaryErrorText : DictionaryError → Bytes
  | .invalidKey => ascii ("dictionary key is not valid UTF-8".toList)
  | .missingEquals => ascii ("dictionary entry is missing '=' separator".toList)

/-- A configuration with the directory added to it. -/
def appendPeerDirectory (dictData : Bytes) (members : List MemberRecord) : Except Failure Bytes :=
  match Dictionary.deserialize dictData with
  | .error e => .error (.error (.storageError (ascii ("dict deserialize failed: ".toList) ++ dictionaryErrorText e)))
  | .ok dict =>
    match serializePeerDirectory pr signingKey controllerAddress networkId now members with
    | .error f => .error (.fault f)
    | .ok directory =>
      .ok (if directory.isEmpty then dict else dict.addBinary Key.peerDirectory directory).serialize

end

/-! ### What a member is listed as -/

/-- The IPv4 address an entry is to carry: none where there is no assignment, and
nothing where it cannot be read. -/
def listedIpv4 : Option Text → Option (Option (Ipv4Addr × UInt8))
  | none => some none
  | some assignment =>
    (parseIpv4 (assignmentParts assignment).1).map fun ip => some (ip, (assignmentParts assignment).2)

def listedIpv6 : Option Text → Option (Option (Ipv6Addr × UInt8))
  | none => some none
  | some assignment =>
    match parseIpv4 (assignmentParts assignment).1, parseIpv6 (assignmentParts assignment).1 with
    | none, .ok (some ip) => some (some (ip, (assignmentParts assignment).2))
    | _, _ => none

def listing (networkId : UInt64) (nodeId : ByteVec 5) (ipv4 : Option (Ipv4Addr × UInt8))
    (ipv6 : Option (Ipv6Addr × UInt8)) : NetworkMember :=
  { ztAddress := nodeId, mac := Ethernet.deriveMac nodeId networkId, ipv4, ipv6, authorized := true }

/-- How a node is to see a member; nothing if the first assignment of a family cannot
be read as an address of it. -/
def MemberRecord.listed (networkId : UInt64) (m : MemberRecord) : Option NetworkMember := do
  let ipv4 ← listedIpv4 m.firstIpv4
  let ipv6 ← listedIpv6 m.firstIpv6
  return listing networkId m.nodeId ipv4 ipv6

/-- The first assignment of each family is an address of that family. -/
structure MemberRecord.Readable (m : MemberRecord) : Prop where
  ipv4 : ∀ assignment, m.firstIpv4 = some assignment → (parseIpv4 (assignmentParts assignment).1).isSome
  ipv6 : ∀ assignment, m.firstIpv6 = some assignment → parseIpv4 (assignmentParts assignment).1 = none ∧
    ∃ ip, parseIpv6 (assignmentParts assignment).1 = .ok (some ip)

theorem isSome_listed (networkId : UInt64) (m : MemberRecord) : (m.listed networkId).isSome ↔ m.Readable := by
  have hipv4 : (listedIpv4 m.firstIpv4).isSome ↔
      ∀ assignment, m.firstIpv4 = some assignment → (parseIpv4 (assignmentParts assignment).1).isSome := by
    cases m.firstIpv4 <;> simp [listedIpv4]
  have hipv6 : (listedIpv6 m.firstIpv6).isSome ↔ ∀ assignment, m.firstIpv6 = some assignment →
      parseIpv4 (assignmentParts assignment).1 = none ∧
        ∃ ip, parseIpv6 (assignmentParts assignment).1 = .ok (some ip) := by
    cases m.firstIpv6 with
    | none => simp [listedIpv6]
    | some assignment =>
      simp only [listedIpv6, Option.some.injEq, forall_eq']
      split
      · rename_i ip hnone hip
        simp [hnone, hip]
      · rename_i hne
        simp only [Option.isSome_none, Bool.false_eq_true, false_iff, not_and, not_exists]
        exact fun hnone ip hip => hne ip hnone hip
  have hboth : (m.listed networkId).isSome ↔ (listedIpv4 m.firstIpv4).isSome ∧ (listedIpv6 m.firstIpv6).isSome := by
    unfold MemberRecord.listed
    cases listedIpv4 m.firstIpv4 <;> cases listedIpv6 m.firstIpv6 <;> simp
  rw [hboth, hipv4, hipv6]
  exact ⟨fun h => ⟨h.1, h.2⟩, fun h => ⟨h.ipv4, h.ipv6⟩⟩

/-! ### Fields -/

/-- An address in its place, or the zero byte. -/
def ipv4Field : Option (Ipv4Addr × UInt8) → InetAddress
  | none => .null
  | some (ip, bits) => .v4 ip bits.toUInt16

def ipv6Field : Option (Ipv6Addr × UInt8) → InetAddress
  | none => .null
  | some (ip, bits) => .v6 ip bits.toUInt16

theorem inetV4FromBytes_field (ip : Option (Ipv4Addr × UInt8)) (rest : Bytes) :
    inetV4FromBytes ((ipv4Field ip).serialize ++ rest) = some (ip, (ipv4Field ip).serialize.length) := by
  rw [inetV4FromBytes, InetAddress.deserialize_serialize]
  cases ip with
  | none => rfl
  | some ip => simp [ipv4Field]

theorem inetV6FromBytes_field (ip : Option (Ipv6Addr × UInt8)) (rest : Bytes) :
    inetV6FromBytes ((ipv6Field ip).serialize ++ rest) = some (ip, (ipv6Field ip).serialize.length) := by
  rw [inetV6FromBytes, InetAddress.deserialize_serialize]
  cases ip with
  | none => rfl
  | some ip => simp [ipv6Field]

/-- An assignment without a colon has an address without one. -/
theorem colon_notMem_parts {assignment : Text} (h : colon ∉ assignment.bytes) :
    colon ∉ (assignmentParts assignment).1 := by
  unfold assignmentParts
  cases hsplit : splitOnce slash assignment.bytes with
  | none => exact h
  | some parts =>
    obtain ⟨front, back⟩ := parts
    rw [(splitOnce_eq_some hsplit).1] at h
    exact fun hc => h (List.mem_append_left _ hc)

/-- The field of the first assignment without a colon: an IPv4 address, or nothing. -/
theorem serializeAssignmentInet_ipv4 {assignment : Option Text}
    (h : ∀ text, assignment = some text → colon ∉ text.bytes) :
    (∃ ip, listedIpv4 assignment = some ip ∧ serializeAssignmentInet assignment = .ok (ipv4Field ip).serialize) ∨
      listedIpv4 assignment = none ∧ serializeAssignmentInet assignment = .ok [] := by
  cases assignment with
  | none => exact .inl ⟨none, rfl, rfl⟩
  | some text =>
    have hipv6 : parseIpv6 (assignmentParts text).1 = .ok none := by
      simp [parseIpv6, colon_notMem_parts (h text rfl)]
    simp only [listedIpv4, serializeAssignmentInet, serializeInetAddress, parseInet]
    cases parseIpv4 (assignmentParts text).1 with
    | some ip => exact .inl ⟨some (ip, (assignmentParts text).2), rfl, rfl⟩
    | none =>
      refine .inr ⟨rfl, ?_⟩
      rw [hipv6]
      rfl

/-- The field of the first assignment with a colon: an IPv6 address, or nothing, or an
IPv4 address. -/
theorem serializeAssignmentInet_ipv6 (assignment : Option Text) :
    (∃ ip, listedIpv6 assignment = some ip ∧ serializeAssignmentInet assignment = .ok (ipv6Field ip).serialize) ∨
      listedIpv6 assignment = none ∧ ∀ field, serializeAssignmentInet assignment = .ok field →
        field = [] ∨ ∃ ip bits, field = (InetAddress.v4 ip bits).serialize := by
  cases assignment with
  | none => exact .inl ⟨none, rfl, rfl⟩
  | some text =>
    simp only [listedIpv6, serializeAssignmentInet, serializeInetAddress, parseInet]
    cases parseIpv4 (assignmentParts text).1 with
    | some ip =>
      refine .inr ⟨rfl, fun field hfield => .inr ⟨ip, (assignmentParts text).2.toUInt16, ?_⟩⟩
      cases hfield
      rfl
    | none =>
      cases parseIpv6 (assignmentParts text).1 with
      | error f => exact .inr ⟨rfl, fun field hfield => by cases hfield⟩
      | ok ip =>
        cases ip with
        | none =>
          refine .inr ⟨rfl, fun field hfield => .inl ?_⟩
          cases hfield
          rfl
        | some ip => exact .inl ⟨some (ip, (assignmentParts text).2), rfl, rfl⟩

theorem firstIpv4_no_colon (m : MemberRecord) (text : Text) (h : m.firstIpv4 = some text) :
    colon ∉ text.bytes := by
  have hfound := List.find?_some h
  simpa using hfound

/-! ### One entry -/

section
variable (pr : Primitives) (signingKey : ByteVec 32) (controller : Address) (networkId now : UInt64)
  (ourAddress : ByteVec 5)

/-- A certificate starts with its version, which is no kind of address. -/
theorem deserialize_com_front (com : CertificateOfMembership) (rest : Bytes) :
    InetAddress.deserialize (com.serialize ++ rest) = .error .invalidPacket := rfl

theorem inetV6FromBytes_com (com : CertificateOfMembership) (rest : Bytes) :
    inetV6FromBytes (com.serialize ++ rest) = none := by
  rw [inetV6FromBytes, deserialize_com_front]

theorem wellFormed_buildSignedCom (issuedTo : UInt64) :
    (buildSignedCom pr signingKey controller.bytes networkId issuedTo now).WellFormed :=
  wellFormed_signedCom pr signingKey (fun h => controller.notZero (congrArg ByteVec.toBytes h)) networkId issuedTo now

/-- The directory with an entry in front. -/
def pushEntry (member : NetworkMember) (com : CertificateOfMembership) (d : PeerDirectory) : PeerDirectory where
  members := member :: d.members
  peerComs := if member.ztAddress ≠ ourAddress then (member.ztAddress, com) :: d.peerComs else d.peerComs

/-- An entry with an address or a zero byte in either place is read as it was written. -/
theorem peerDirectoryEntries_fields (nodeId : ByteVec 5) (ipv4 : Option (Ipv4Addr × UInt8))
    (ipv6 : Option (Ipv6Addr × UInt8)) {com : CertificateOfMembership} (hcom : com.WellFormed) (count : Nat)
    (rest : Bytes) :
    peerDirectoryEntries networkId ourAddress (count + 1)
        (nodeId.toBytes ++ ((ipv4Field ipv4).serialize ++ ((ipv6Field ipv6).serialize ++ (com.serialize ++ rest)))) =
      (peerDirectoryEntries networkId ourAddress count rest).map
        (pushEntry ourAddress (listing networkId nodeId ipv4 ipv6) com) := by
  have hread := com.deserialize_serialize hcom rest
  have hdrop : ∀ tail, (nodeId.toBytes ++ tail).drop 5 = tail := fun tail => by simp
  rw [peerDirectoryEntries, if_neg (by simp)]
  simp only [hdrop, fieldAt_front, inetV4FromBytes_field, inetV6FromBytes_field, List.drop_left, hread,
    Except.toOption, Option.bind_eq_bind, Option.bind_some]
  cases peerDirectoryEntries networkId ourAddress count rest <;> rfl

/-- Behind a node id, fields that are not an IPv4 address or none, an IPv6 address or
none, and a certificate are not an entry. -/
theorem peerDirectoryEntries_lost (nodeId : ByteVec 5) (com : CertificateOfMembership) (count : Nat) (rest : Bytes)
    {field4 field6 : Bytes}
    (h : field4 = [] ∧ (field6 = [] ∨ (∃ ip, field6 = (ipv6Field ip).serialize) ∨
        ∃ ip bits, field6 = (InetAddress.v4 ip bits).serialize) ∨
      (∃ ip, field4 = (ipv4Field ip).serialize) ∧ (field6 = [] ∨
        ∃ ip bits, field6 = (InetAddress.v4 ip bits).serialize)) :
    peerDirectoryEntries networkId ourAddress (count + 1)
      (nodeId.toBytes ++ (field4 ++ (field6 ++ (com.serialize ++ rest)))) = none := by
  have hdrop : ∀ tail, (nodeId.toBytes ++ tail).drop 5 = tail := fun tail => by simp
  rw [peerDirectoryEntries, if_neg (by simp)]
  simp only [hdrop, Option.bind_eq_bind]
  rcases h with ⟨rfl, rfl | ⟨ip, rfl⟩ | ⟨ip, bits, rfl⟩⟩ | ⟨⟨ip, rfl⟩, rfl | ⟨ip', bits, rfl⟩⟩
  · rfl
  · cases ip with
    | none => rfl
    | some ip =>
      rw [List.nil_append, inetV4FromBytes, InetAddress.deserialize_serialize]
      rfl
  · rw [List.nil_append, inetV4FromBytes, InetAddress.deserialize_serialize]
    simp only [Option.bind_some, List.drop_left, inetV6FromBytes_com, Option.bind_none]
  · rw [inetV4FromBytes_field]
    simp only [Option.bind_some, List.drop_left, List.nil_append, inetV6FromBytes_com, Option.bind_none]
  · rw [inetV4FromBytes_field]
    simp only [Option.bind_some, List.drop_left, inetV6FromBytes, InetAddress.deserialize_serialize,
      Option.bind_none]

/-- The entry of a member whose assignments can be read is read as that member. -/
theorem serializeDirectoryEntry_listed {m : MemberRecord} {member : NetworkMember}
    (hlisted : m.listed networkId = some member) :
    ∃ entry, serializeDirectoryEntry pr signingKey controller.bytes networkId now m = .ok entry ∧
      ∀ count rest, peerDirectoryEntries networkId ourAddress (count + 1) (entry ++ rest) =
        (peerDirectoryEntries networkId ourAddress count rest).map
          (pushEntry ourAddress member (memberCom pr signingKey controller.bytes networkId now m)) := by
  obtain ⟨ipv4, hipv4, hrest⟩ := Option.bind_eq_some_iff.mp hlisted
  obtain ⟨ipv6, hipv6, hmember⟩ := Option.bind_eq_some_iff.mp hrest
  obtain rfl : listing networkId m.nodeId ipv4 ipv6 = member := Option.some.inj hmember
  have hfield4 : serializeAssignmentInet m.firstIpv4 = .ok (ipv4Field ipv4).serialize := by
    rcases serializeAssignmentInet_ipv4 (firstIpv4_no_colon m) with ⟨ip, hip, hfield⟩ | ⟨hnone, -⟩
    · obtain rfl : ip = ipv4 := Option.some.inj (hip.symm.trans hipv4)
      exact hfield
    · cases hnone.symm.trans hipv4
  have hfield6 : serializeAssignmentInet m.firstIpv6 = .ok (ipv6Field ipv6).serialize := by
    rcases serializeAssignmentInet_ipv6 m.firstIpv6 with ⟨ip, hip, hfield⟩ | ⟨hnone, -⟩
    · obtain rfl : ip = ipv6 := Option.some.inj (hip.symm.trans hipv6)
      exact hfield
    · cases hnone.symm.trans hipv6
  refine ⟨_, by simp only [serializeDirectoryEntry, hfield4, hfield6, ok_bind]; rfl, fun count rest => ?_⟩
  simp only [List.append_assoc]
  exact peerDirectoryEntries_fields networkId ourAddress _ _ _
    (wellFormed_buildSignedCom pr signingKey controller networkId now _) count rest

/-- The entry of a member with an assignment that cannot be read cannot be read. -/
theorem serializeDirectoryEntry_lost {m : MemberRecord} (hlisted : m.listed networkId = none) {entry : Bytes}
    (hentry : serializeDirectoryEntry pr signingKey controller.bytes networkId now m = .ok entry) (count : Nat)
    (rest : Bytes) : peerDirectoryEntries networkId ourAddress (count + 1) (entry ++ rest) = none := by
  obtain ⟨field4, hfield4, hentry⟩ := bind_eq_ok hentry
  obtain ⟨field6, hfield6, hentry⟩ := bind_eq_ok hentry
  obtain rfl := Except.ok.inj hentry
  simp only [List.append_assoc]
  apply peerDirectoryEntries_lost
  rcases serializeAssignmentInet_ipv4 (firstIpv4_no_colon m) with ⟨ip, hip, hser4⟩ | ⟨-, hser4⟩
  · obtain rfl := Except.ok.inj (hser4.symm.trans hfield4)
    rcases serializeAssignmentInet_ipv6 m.firstIpv6 with ⟨ip', hip', -⟩ | ⟨-, hser6⟩
    · simp [MemberRecord.listed, hip, hip'] at hlisted
    · exact .inr ⟨⟨ip, rfl⟩, hser6 field6 hfield6⟩
  · obtain rfl := Except.ok.inj (hser4.symm.trans hfield4)
    refine .inl ⟨rfl, ?_⟩
    rcases serializeAssignmentInet_ipv6 m.firstIpv6 with ⟨ip, -, hser6⟩ | ⟨-, hser6⟩
    · exact .inr (.inl ⟨ip, Except.ok.inj (hfield6.symm.trans hser6)⟩)
    · exact (hser6 field6 hfield6).imp_right .inr

/-! ### The directory -/

/-- The certificates a node files: all but its own. -/
def filedComs (members : List MemberRecord) : List (ByteVec 5 × CertificateOfMembership) :=
  (members.filter fun m => m.nodeId ≠ ourAddress).map fun m =>
    (m.nodeId, memberCom pr signingKey controller.bytes networkId now m)

theorem ztAddress_listed {m : MemberRecord} {member : NetworkMember} (h : m.listed networkId = some member) :
    member.ztAddress = m.nodeId := by
  obtain ⟨ipv4, -, hrest⟩ := Option.bind_eq_some_iff.mp h
  obtain ⟨ipv6, -, hmember⟩ := Option.bind_eq_some_iff.mp hrest
  exact (congrArg NetworkMember.ztAddress (Option.some.inj hmember)).symm

/-- Entries that can all be read are read as the members they are of. -/
theorem serializeDirectoryEntries_listed (members : List MemberRecord)
    (hlisted : ∀ m ∈ members, (m.listed networkId).isSome) :
    ∃ entries, serializeDirectoryEntries pr signingKey controller.bytes networkId now members = .ok entries ∧
      peerDirectoryEntries networkId ourAddress members.length entries =
        some ⟨members.filterMap (MemberRecord.listed networkId),
          filedComs pr signingKey controller networkId now ourAddress members⟩ := by
  induction members with
  | nil => exact ⟨[], rfl, rfl⟩
  | cons m rest ih =>
    obtain ⟨hfirst, hrest⟩ := List.forall_mem_cons.mp hlisted
    obtain ⟨member, hmember⟩ := Option.isSome_iff_exists.mp hfirst
    obtain ⟨entry, hentry, hread⟩ :=
      serializeDirectoryEntry_listed pr signingKey controller networkId now ourAddress hmember
    obtain ⟨entries, hentries, hdecode⟩ := ih hrest
    refine ⟨entry ++ entries, by simp only [serializeDirectoryEntries, hentry, hentries, ok_bind]; rfl, ?_⟩
    rw [List.length_cons, hread, hdecode, Option.map_some, pushEntry, ztAddress_listed networkId hmember,
      List.filterMap_cons_some hmember]
    by_cases hours : m.nodeId = ourAddress <;> simp [hours, filedComs]

/-- An entry that is read, whatever is behind it, is of a listed member. -/
theorem listed_of_read {m : MemberRecord} {entry rest : Bytes} {count : Nat} {directory : PeerDirectory}
    (hentry : serializeDirectoryEntry pr signingKey controller.bytes networkId now m = .ok entry)
    (hdecode : peerDirectoryEntries networkId ourAddress (count + 1) (entry ++ rest) = some directory) :
    ∃ member directory', m.listed networkId = some member ∧
      peerDirectoryEntries networkId ourAddress count rest = some directory' ∧
      directory = pushEntry ourAddress member (memberCom pr signingKey controller.bytes networkId now m) directory' := by
  cases hlisted : m.listed networkId with
  | none =>
    rw [serializeDirectoryEntry_lost pr signingKey controller networkId now ourAddress hlisted hentry] at hdecode
    cases hdecode
  | some member =>
    obtain ⟨entry', hentry', hread⟩ :=
      serializeDirectoryEntry_listed pr signingKey controller networkId now ourAddress hlisted
    obtain rfl := Except.ok.inj (hentry.symm.trans hentry')
    rw [hread] at hdecode
    obtain ⟨directory', hdirectory', heq⟩ := Option.map_eq_some_iff.mp hdecode
    exact ⟨member, directory', rfl, hdirectory', heq.symm⟩

/-- One entry that cannot be read loses the others. -/
theorem serializeDirectoryEntries_lost {members : List MemberRecord} {entries : Bytes}
    (hentries : serializeDirectoryEntries pr signingKey controller.bytes networkId now members = .ok entries)
    {directory : PeerDirectory}
    (hdecode : peerDirectoryEntries networkId ourAddress members.length entries = some directory) :
    ∀ m ∈ members, (m.listed networkId).isSome := by
  induction members generalizing entries directory with
  | nil => simp
  | cons m rest ih =>
    obtain ⟨entry, hentry, hentries⟩ := bind_eq_ok hentries
    obtain ⟨more, hmore, hentries⟩ := bind_eq_ok hentries
    obtain rfl := Except.ok.inj hentries
    obtain ⟨member, directory', hlisted, hdirectory', -⟩ :=
      listed_of_read pr signingKey controller networkId now ourAddress hentry hdecode
    exact List.forall_mem_cons.mpr ⟨by simp [hlisted], ih hmore hdirectory'⟩

/-- Entries that were read are of members they were written for. -/
theorem mem_directoryEntries {members : List MemberRecord} {entries : Bytes}
    (hentries : serializeDirectoryEntries pr signingKey controller.bytes networkId now members = .ok entries)
    {count : Nat} (hcount : count ≤ members.length) {directory : PeerDirectory}
    (hdecode : peerDirectoryEntries networkId ourAddress count entries = some directory) :
    ∀ l ∈ directory.members, ∃ m ∈ members, l.ztAddress = m.nodeId := by
  induction members generalizing entries count directory with
  | nil =>
    obtain rfl : count = 0 := by simpa using hcount
    obtain rfl := Option.some.inj hdecode
    simp
  | cons m rest ih =>
    cases count with
    | zero =>
      obtain rfl := Option.some.inj hdecode
      simp
    | succ count =>
      obtain ⟨entry, hentry, hentries⟩ := bind_eq_ok hentries
      obtain ⟨more, hmore, hentries⟩ := bind_eq_ok hentries
      obtain rfl := Except.ok.inj hentries
      obtain ⟨member, directory', hlisted, hdirectory', rfl⟩ :=
        listed_of_read pr signingKey controller networkId now ourAddress hentry hdecode
      intro l hl
      rcases List.mem_cons.mp hl with rfl | hl
      · exact ⟨m, List.mem_cons_self, ztAddress_listed networkId hlisted⟩
      · obtain ⟨m', hm', haddress⟩ := ih hmore (by simpa using hcount) hdirectory' l hl
        exact ⟨m', List.mem_cons_of_mem _ hm', haddress⟩

theorem getBinary_addBinary {dict : Dictionary} {key : Text} (h : ∀ e ∈ dict, e.key ≠ key) (data : Bytes) :
    (dict.addBinary key data).getBinary key = some data := by
  have hnone : dict.find? (fun e => e.key = key) = none := by simpa using h
  simp [Dictionary.getBinary, Dictionary.addBinary, List.find?_append, hnone]

theorem plainKeys_addBinary {dict : Dictionary} (h : dict.PlainKeys) (data : Bytes) :
    (dict.addBinary Key.peerDirectory data).PlainKeys := by
  intro e he
  rcases List.mem_append.mp he with he | he
  · exact h e he
  · obtain rfl := List.mem_singleton.mp he
    show ∀ b ∈ Key.peerDirectory.bytes, b ≠ Dictionary.equals ∧ Dictionary.isNewline b = false
    decide +kernel

variable {dict : Dictionary} (hkeys : dict.PlainKeys) (hnone : ∀ e ∈ dict, e.key ≠ Key.peerDirectory)
  {members : List MemberRecord} (hcount : members.length ≤ 65535)

include hkeys in
/-- A configuration with a directory is the configuration with one more entry. -/
theorem appendPeerDirectory_serialize :
    appendPeerDirectory pr signingKey controller.bytes networkId now dict.serialize members =
      match serializePeerDirectory pr signingKey controller.bytes networkId now members with
      | .error f => .error (.fault f)
      | .ok directory => .ok (dict.addBinary Key.peerDirectory directory).serialize := by
  rw [appendPeerDirectory, Dictionary.deserialize_serialize dict hkeys]
  simp only
  cases hdirectory : serializePeerDirectory pr signingKey controller.bytes networkId now members with
  | error f => rfl
  | ok directory =>
    obtain ⟨entries, -, heq⟩ := bind_eq_ok hdirectory
    have hlen : 0 < directory.length := by
      rw [← Except.ok.inj heq]
      simp
    have hempty : directory.isEmpty = false := by
      cases directory <;> simp_all
    simp [hempty]

include hkeys hnone in
/-- What a node reads of the directory of a configuration are as many of its entries as
were counted. -/
theorem peerDirectoryFromDictData_appended {entries : Bytes}
    (hentries : serializeDirectoryEntries pr signingKey controller.bytes networkId now
      (members.filter MemberRecord.eligible) = .ok entries) :
    ∃ data, appendPeerDirectory pr signingKey controller.bytes networkId now dict.serialize members = .ok data ∧
      peerDirectoryFromDictData data networkId ourAddress = peerDirectoryEntries networkId ourAddress
        (UInt16.ofNat (members.filter MemberRecord.eligible).length).toNat entries := by
  set directory := be16 (UInt16.ofNat (members.filter MemberRecord.eligible).length) ++ entries with hdirectory
  have hserialize : serializePeerDirectory pr signingKey controller.bytes networkId now members = .ok directory := by
    simp only [serializePeerDirectory, hentries, ok_bind]
    rfl
  refine ⟨(dict.addBinary Key.peerDirectory directory).serialize, ?_, ?_⟩
  · rw [appendPeerDirectory_serialize pr signingKey controller networkId now hkeys, hserialize]
  · have hbinary : (dict.addBinary Key.peerDirectory directory).getBinary ConfigKey.peerDirectory = some directory :=
      getBinary_addBinary hnone directory
    rw [peerDirectoryFromDictData_eq (Dictionary.deserialize_serialize _ (plainKeys_addBinary hkeys directory)),
      Dictionary.directory, hbinary, Option.bind_some, if_neg (by simp [hdirectory]; omega), hdirectory, u16At_be16,
      List.drop_left' (length_be16 _)]

include hcount in
theorem toNat_entryCount : (UInt16.ofNat (members.filter MemberRecord.eligible).length).toNat =
    (members.filter MemberRecord.eligible).length := by
  have := List.length_filter_le MemberRecord.eligible members
  simp
  omega

include hkeys in
/-- A configuration with a directory has the entries of the members that are listed. -/
theorem entries_of_appended {data : Bytes}
    (hdata : appendPeerDirectory pr signingKey controller.bytes networkId now dict.serialize members = .ok data) :
    ∃ entries, serializeDirectoryEntries pr signingKey controller.bytes networkId now
      (members.filter MemberRecord.eligible) = .ok entries := by
  rw [appendPeerDirectory_serialize pr signingKey controller networkId now hkeys] at hdata
  cases hserialize : serializePeerDirectory pr signingKey controller.bytes networkId now members with
  | error f =>
    rw [hserialize] at hdata
    cases hdata
  | ok bytes =>
    obtain ⟨entries, hentries, -⟩ := bind_eq_ok hserialize
    exact ⟨entries, hentries⟩

include hkeys hnone in
/-- Whatever a node reads of a directory, it reads members that are listed. -/
theorem eligible_of_peerDirectory {data : Bytes} {directory : PeerDirectory}
    (hdata : appendPeerDirectory pr signingKey controller.bytes networkId now dict.serialize members = .ok data)
    (hdecode : peerDirectoryFromDictData data networkId ourAddress = some directory) :
    ∀ l ∈ directory.members, ∃ m ∈ members, m.eligible = true ∧ l.ztAddress = m.nodeId := by
  obtain ⟨entries, hentries⟩ := entries_of_appended pr signingKey controller networkId now hkeys hdata
  obtain ⟨data', hdata', hread⟩ := peerDirectoryFromDictData_appended pr signingKey controller networkId now
    ourAddress hkeys hnone hentries
  obtain rfl := Except.ok.inj (hdata.symm.trans hdata')
  intro l hl
  have hcount : (UInt16.ofNat (members.filter MemberRecord.eligible).length).toNat ≤
      (members.filter MemberRecord.eligible).length := by
    rw [UInt16.toNat_ofNat']
    exact Nat.mod_le _ _
  obtain ⟨m, hm, haddress⟩ := mem_directoryEntries pr signingKey controller networkId now ourAddress hentries hcount
    (hread.symm.trans hdecode) l hl
  exact ⟨m, (List.mem_filter.mp hm).1, (List.mem_filter.mp hm).2, haddress⟩

include hkeys hnone hcount in
/-- When all assignments can be read, a node reads all members that are listed and no
others. -/
theorem peerDirectory_readable (hreadable : ∀ m ∈ members, m.eligible = true → m.Readable) :
    ∃ data, appendPeerDirectory pr signingKey controller.bytes networkId now dict.serialize members = .ok data ∧
      peerDirectoryFromDictData data networkId ourAddress =
        some ⟨(members.filter MemberRecord.eligible).filterMap (MemberRecord.listed networkId),
          filedComs pr signingKey controller networkId now ourAddress (members.filter MemberRecord.eligible)⟩ := by
  have hlisted : ∀ m ∈ members.filter MemberRecord.eligible, (m.listed networkId).isSome := by
    intro m hm
    obtain ⟨hm, heligible⟩ := List.mem_filter.mp hm
    exact (isSome_listed networkId m).mpr (hreadable m hm heligible)
  obtain ⟨entries, hentries, hdecode⟩ :=
    serializeDirectoryEntries_listed pr signingKey controller networkId now ourAddress _ hlisted
  obtain ⟨data, hdata, hread⟩ := peerDirectoryFromDictData_appended pr signingKey controller networkId now
    ourAddress hkeys hnone hentries
  rw [toNat_entryCount hcount] at hread
  exact ⟨data, hdata, hread.trans hdecode⟩

include hkeys hnone hcount in
/-- A directory that can be read at all is one of members whose assignments can be. -/
theorem readable_of_peerDirectory {data : Bytes} {directory : PeerDirectory}
    (hdata : appendPeerDirectory pr signingKey controller.bytes networkId now dict.serialize members = .ok data)
    (hdecode : peerDirectoryFromDictData data networkId ourAddress = some directory) :
    ∀ m ∈ members, m.eligible = true → m.Readable := by
  obtain ⟨entries, hentries⟩ := entries_of_appended pr signingKey controller networkId now hkeys hdata
  obtain ⟨data', hdata', hread⟩ := peerDirectoryFromDictData_appended pr signingKey controller networkId now
    ourAddress hkeys hnone hentries
  obtain rfl := Except.ok.inj (hdata.symm.trans hdata')
  rw [toNat_entryCount hcount] at hread
  have hlisted := serializeDirectoryEntries_lost pr signingKey controller networkId now ourAddress hentries
    (hread.symm.trans hdecode)
  exact fun m hm heligible => (isSome_listed networkId m).mp (hlisted m (List.mem_filter.mpr ⟨hm, heligible⟩))

include hkeys hnone hcount in
/-- The members whose assignments can be read are in the directory a node reads exactly
if the assignments of all members that are listed can be. -/
theorem peerDirectory_complete_iff :
    (∃ data directory,
      appendPeerDirectory pr signingKey controller.bytes networkId now dict.serialize members = .ok data ∧
      peerDirectoryFromDictData data networkId ourAddress = some directory ∧
      ((members.filter MemberRecord.eligible).filterMap (MemberRecord.listed networkId)).Sublist directory.members ∧
      (filedComs pr signingKey controller networkId now ourAddress
        (members.filter fun m => m.eligible && (m.listed networkId).isSome)).Sublist directory.peerComs) ↔
      ∀ m ∈ members, m.authorized = true → m.ipAssignments ≠ [] → m.Readable := by
  have hcond : (∀ m ∈ members, m.authorized = true → m.ipAssignments ≠ [] → m.Readable) ↔
      ∀ m ∈ members, m.eligible = true → m.Readable := by
    simp [MemberRecord.eligible]
  rw [hcond]
  constructor
  · rintro ⟨data, directory, hdata, hdecode, -⟩
    exact readable_of_peerDirectory pr signingKey controller networkId now ourAddress hkeys hnone hcount hdata hdecode
  · intro hreadable
    obtain ⟨data, hdata, hdecode⟩ := peerDirectory_readable pr signingKey controller networkId now ourAddress hkeys
      hnone hcount hreadable
    refine ⟨data, _, hdata, hdecode, List.Sublist.refl _, ?_⟩
    have hsame : members.filter (fun m => m.eligible && (m.listed networkId).isSome) =
        members.filter MemberRecord.eligible := by
      refine List.filter_congr fun m hm => ?_
      cases heligible : m.eligible with
      | false => rfl
      | true => simp [(isSome_listed networkId m).mpr (hreadable m hm heligible)]
    rw [hsame]

end

namespace SampleMembers

def networkId : UInt64 := 0x0a00000001000001

/-- The address of party `k`. -/
def address (k : UInt8) : ByteVec 5 := (Sample.identity k).address.bytes

def controller : Address := (Sample.identity 1).address

/-- An authorised member without capabilities or tags. -/
def member (k : UInt8) (ipAssignments : List Text) : MemberRecord where
  networkId := networkId
  nodeId := address k
  authorized := true
  ipAssignments := ipAssignments
  creationTime := 0
  lastSeen := 0
  name := .literal []
  revision := 0
  lastAuthorizedTime := 0
  lastDeauthorizedTime := 0
  activeBridge := false
  noAutoAssignIps := false
  capabilities := []
  tags := []

/-- 10.0.0.2/24. -/
def ipv4 : Text := .literal ['1', '0', '.', '0', '.', '0', '.', '2', '/', '2', '4']

/-- fd00::2/64. -/
def ipv6 : Text := .literal ['f', 'd', '0', '0', ':', ':', '2', '/', '6', '4']

/-- 10.0.0.3/24. -/
def otherIpv4 : Text := .literal ['1', '0', '.', '0', '.', '0', '.', '3', '/', '2', '4']

/-- An assignment that is no address. -/
def malformed : Text := .literal ['n', 'o', 'n', 'e']

end SampleMembers

open SampleMembers in
/-- A member whose assignments can be read is in no directory next to one whose
assignment cannot. -/
theorem peerDirectory_poisoned : (member 2 [ipv4, ipv6]).Readable ∧ ∃ data,
    appendPeerDirectory Sample.primitives (Sample.key 1) controller.bytes networkId 1000 (Dictionary.serialize [])
      [member 2 [ipv4, ipv6], member 3 [malformed]] = .ok data ∧
    peerDirectoryFromDictData data networkId (address 4) = none := by
  obtain ⟨data, hdata, hdecode⟩ := exists_of_okWith
    (p := fun data => peerDirectoryFromDictData data networkId (address 4) = none)
    (show okWith (appendPeerDirectory Sample.primitives (Sample.key 1) controller.bytes networkId 1000
      (Dictionary.serialize []) [member 2 [ipv4, ipv6], member 3 [malformed]]) _ = true by decide +kernel)
  exact ⟨(isSome_listed networkId _).mp (by decide), data, hdata, of_decide_eq_true hdecode⟩

open SampleMembers in
/-- In a configuration that names its network, a member with an address of each family is
listed under both, and one with an IPv4 address behind it. -/
theorem peerDirectory_complete_iff_two : ∃ data directory,
    appendPeerDirectory Sample.primitives (Sample.key 1) controller.bytes networkId 1000
      (Dictionary.serialize [⟨Key.nwid, be64 networkId⟩]) [member 2 [ipv4, ipv6], member 3 [otherIpv4]] = .ok data ∧
    peerDirectoryFromDictData data networkId (address 4) = some directory ∧
    [listing networkId (address 2) (some (⟨[10, 0, 0, 2], rfl⟩, 24))
        (some (⟨[0xfd, 0, 0, 0, 0, 0, 0, 0, 0, 0, 0, 0, 0, 0, 0, 2], rfl⟩, 64)),
      listing networkId (address 3) (some (⟨[10, 0, 0, 3], rfl⟩, 24)) none].Sublist directory.members := by
  have hreadable : ∀ m ∈ [member 2 [ipv4, ipv6], member 3 [otherIpv4]], m.Readable := by
    intro m hm
    rcases List.mem_pair.mp hm with rfl | rfl <;> exact (isSome_listed networkId _).mp (by decide)
  have hplain : Dictionary.PlainKeys [⟨Key.nwid, be64 networkId⟩] := by
    intro e he
    obtain rfl := List.mem_singleton.mp he
    show ∀ b ∈ Key.nwid.bytes, b ≠ Dictionary.equals ∧ Dictionary.isNewline b = false
    decide +kernel
  obtain ⟨data, directory, hdata, hdecode, hmembers, -⟩ :=
    (peerDirectory_complete_iff Sample.primitives (Sample.key 1) controller networkId 1000 (address 4) hplain
      (fun e he => by rw [List.mem_singleton.mp he]; decide)
      (show [member 2 [ipv4, ipv6], member 3 [otherIpv4]].length ≤ 65535 by decide)).mpr fun m hm _ _ => hreadable m hm
  refine ⟨data, directory, hdata, hdecode, ?_⟩
  have hlisted : ([member 2 [ipv4, ipv6], member 3 [otherIpv4]].filter MemberRecord.eligible).filterMap
      (MemberRecord.listed networkId) =
      [listing networkId (address 2) (some (⟨[10, 0, 0, 2], rfl⟩, 24))
          (some (⟨[0xfd, 0, 0, 0, 0, 0, 0, 0, 0, 0, 0, 0, 0, 0, 0, 2], rfl⟩, 64)),
        listing networkId (address 3) (some (⟨[10, 0, 0, 3], rfl⟩, 24)) none] := by
    decide
  rwa [hlisted] at hmembers

end ManyTier.Controller
