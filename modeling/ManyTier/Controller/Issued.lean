import ManyTier.Controller.Directory
import ManyTier.Controller.Routes
import ManyTier.Lib.IpText

/-! What a node makes of the configuration it is issued.

The keys of a configuration are the ones listed in `configKeys`, so its entries read
back, and its certificate and addresses are found under theirs. The node takes the last
address of each family of its own; its peers are told the first of each, so the two agree
where first and last are the same (`addresses_agree_iff`). -/
namespace ManyTier.Controller

/-! ### Entries and their keys -/

def configKeys : List Text :=
  [Key.nwid, Key.name, Key.networkType, Key.version, Key.timestamp, Key.revision, Key.issuedTo, Key.flags,
    Key.mtu, Key.multicastLimit, Key.credentialTimeMaxDelta, Key.com, Key.rules, Key.staticIps, Key.routes,
    Key.capabilities, Key.tags]

theorem configKeys_plain : ∀ key ∈ configKeys, key ≠ Key.peerDirectory ∧
    ∀ b ∈ key.bytes, b ≠ Dictionary.equals ∧ Dictionary.isNewline b = false := by
  decide +kernel

def rulesData (network : NetworkRecord) : Bytes :=
  if network.rules.isEmpty then serializeRulesAllowAll else serializeRules network.rules

/-- The entries before the addresses. -/
def frontEntries (network : NetworkRecord) (member : MemberRecord) (com : CertificateOfMembership)
    (now : UInt64) : Dictionary :=
  settingEntries network member now ++ [⟨Key.com, com.serialize⟩, ⟨Key.rules, rulesData network⟩]

theorem keys_frontEntries (network : NetworkRecord) (member : MemberRecord) (com : CertificateOfMembership)
    (now : UInt64) : (frontEntries network member com now).map DictEntry.key =
      [Key.nwid, Key.name, Key.networkType, Key.version, Key.timestamp, Key.revision, Key.issuedTo, Key.flags,
        Key.mtu, Key.multicastLimit, Key.credentialTimeMaxDelta, Key.com, Key.rules] :=
  rfl

/-- The entry of a member's addresses, when it has any. -/
def staticIpEntries (assignments : List Text) (data : Bytes) : Dictionary :=
  if assignments.isEmpty then [] else [⟨Key.staticIps, data⟩]

section
variable {network : NetworkRecord} {member : MemberRecord} {routes : List ManagedRoute}
  {com : CertificateOfMembership} {now : UInt64} {capabilitiesRaw tagsRaw : Bytes} {entries : Dictionary}
  (h : networkConfigEntries network member routes com now capabilitiesRaw tagsRaw = .ok entries)
include h

/-- What stands in a configuration that could be built. -/
theorem networkConfigEntries_eq : ∃ ips routeData,
    (member.ipAssignments ≠ [] → serializeIpAssignments member.ipAssignments = .ok ips) ∧
    entries = frontEntries network member com now ++
      (staticIpEntries member.ipAssignments ips ++ ([⟨Key.routes, routeData⟩] ++
        (entryUnlessEmpty Key.capabilities capabilitiesRaw ++ entryUnlessEmpty Key.tags tagsRaw))) := by
  unfold networkConfigEntries at h
  simp only at h
  split at h
  · rename_i hempty
    obtain ⟨none, hnone, hrest⟩ := bind_eq_ok h
    obtain rfl := Except.ok.inj hnone
    obtain ⟨routeData, -, heq⟩ := bind_eq_ok hrest
    obtain rfl := Except.ok.inj heq
    refine ⟨[], routeData, fun hne => absurd (List.isEmpty_iff.mp hempty) hne, ?_⟩
    simp only [frontEntries, staticIpEntries, rulesData, hempty, if_true, List.append_nil, List.nil_append, List.append_assoc]
  · rename_i hempty
    obtain ⟨data, hdata, hrest⟩ := bind_eq_ok h
    obtain ⟨ips, hips, hrest⟩ := bind_eq_ok hrest
    obtain rfl := Except.ok.inj hips
    obtain ⟨routeData, -, heq⟩ := bind_eq_ok hrest
    obtain rfl := Except.ok.inj heq
    refine ⟨data, routeData, fun _ => hdata, ?_⟩
    simp only [frontEntries, staticIpEntries, rulesData, hempty, Bool.false_eq_true, if_false, List.append_assoc]

/-- Every key is one of those a configuration has. -/
theorem key_mem_configKeys : ∀ e ∈ entries, e.key ∈ configKeys := by
  obtain ⟨ips, routeData, -, rfl⟩ := networkConfigEntries_eq h
  have hfront : ∀ e ∈ frontEntries network member com now, e.key ∈ configKeys := by
    have hkeys : (frontEntries network member com now).map DictEntry.key ⊆ configKeys := by
      rw [keys_frontEntries]
      decide
    exact fun e he => hkeys (List.mem_map_of_mem he)
  have hone : ∀ {key : Text} {data : Bytes} {e : DictEntry}, key ∈ configKeys →
      e ∈ ([⟨key, data⟩] : Dictionary) → e.key ∈ configKeys := by
    intro key data e hkey he
    obtain rfl := List.mem_singleton.mp he
    exact hkey
  have hunless : ∀ {key : Text} {data : Bytes} {e : DictEntry}, key ∈ configKeys →
      e ∈ entryUnlessEmpty key data → e.key ∈ configKeys := by
    intro key data e hkey he
    unfold entryUnlessEmpty at he
    split at he
    · cases he
    · exact hone hkey he
  intro e he
  rcases List.mem_append.mp he with he | he
  · exact hfront e he
  rcases List.mem_append.mp he with he | he
  · unfold staticIpEntries at he
    split at he
    · cases he
    · exact hone (by decide) he
  rcases List.mem_append.mp he with he | he
  · exact hone (by decide) he
  rcases List.mem_append.mp he with he | he
  · exact hunless (by decide) he
  · exact hunless (by decide) he

theorem plainKeys_config : entries.PlainKeys :=
  fun e he => (configKeys_plain e.key (key_mem_configKeys h e he)).2

theorem no_directory_config : ∀ e ∈ entries, e.key ≠ Key.peerDirectory :=
  fun e he => (configKeys_plain e.key (key_mem_configKeys h e he)).1

/-- The certificate stands under its key. -/
theorem getBinary_com (directory : Bytes) :
    (entries.addBinary Key.peerDirectory directory).getBinary ConfigKey.com = some com.serialize := by
  obtain ⟨ips, routeData, -, rfl⟩ := networkConfigEntries_eq h
  rfl

/-- The addresses stand under theirs. -/
theorem getBinary_staticIps (hne : member.ipAssignments ≠ []) (directory : Bytes) :
    ∃ ips, serializeIpAssignments member.ipAssignments = .ok ips ∧
      (entries.addBinary Key.peerDirectory directory).getBinary ConfigKey.staticIps = some ips := by
  obtain ⟨ips, routeData, hips, rfl⟩ := networkConfigEntries_eq h
  refine ⟨ips, hips hne, ?_⟩
  have hempty : member.ipAssignments.isEmpty = false := by simpa using hne
  rw [staticIpEntries, hempty]
  rfl

end

/-! ### Families -/

theorem colon_notMem_parseIpv4 {s : Bytes} {ip : ByteVec 4} (h : parseIpv4 s = some ip) : colon ∉ s := by
  have hparts : ∀ part ∈ splitOn dot s, (parseU8 part).isSome := by
    unfold parseIpv4 at h
    generalize splitOn dot s = parts at h ⊢
    rcases parts with _ | ⟨a, _ | ⟨b, _ | ⟨c, _ | ⟨d, _ | ⟨e, rest⟩⟩⟩⟩⟩
    case cons.cons.cons.cons.nil =>
      obtain ⟨a', ha, h⟩ := Option.bind_eq_some_iff.mp h
      obtain ⟨b', hb, h⟩ := Option.bind_eq_some_iff.mp h
      obtain ⟨c', hc, h⟩ := Option.bind_eq_some_iff.mp h
      obtain ⟨d', hd, -⟩ := Option.bind_eq_some_iff.mp h
      simp [ha, hb, hc, hd]
    all_goals cases h
  intro hcolon
  have hjoin : [dot].intercalate (splitOn dot s) = s := List.intercalate_splitOn dot
  rw [← hjoin] at hcolon
  rcases mem_intercalate hcolon with hdot | ⟨part, hpart, hc⟩
  · exact absurd hdot (by decide)
  · obtain ⟨n, hn⟩ := Option.isSome_iff_exists.mp (hparts part hpart)
    exact colon_notMem_parseU8 hn hc

theorem colon_mem_parseIpv6 {s : Bytes} {ip : ByteVec 16} (h : parseIpv6 s = .ok (some ip)) : colon ∈ s := by
  by_contra hcolon
  simp [parseIpv6, hcolon] at h

/-- The two ways an assignment is taken apart give the same parts. -/
theorem assignmentParts_of_parsed {assignment : Text} {parts : Bytes × UInt8}
    (h : parseIpPrefix assignment.bytes = some parts) :
    assignmentParts assignment = parts ∧ (colon ∈ assignment.bytes ↔ colon ∈ parts.1) := by
  unfold parseIpPrefix at h
  unfold assignmentParts
  cases hsplit : splitOnce slash assignment.bytes with
  | none =>
    rw [hsplit] at h
    by_cases hcolon : colon ∈ assignment.bytes
    · simp only [List.contains_eq_mem, hcolon, decide_true, if_true] at h
      obtain rfl := Option.some.inj h
      simp [hcolon]
    · simp only [List.contains_eq_mem, hcolon, decide_false, Bool.false_eq_true, if_false] at h
      obtain rfl := Option.some.inj h
      simp [hcolon]
  | some split =>
    obtain ⟨front, back⟩ := split
    rw [hsplit] at h
    obtain ⟨bits, hbits, rfl⟩ := Option.map_eq_some_iff.mp h
    refine ⟨by simp [hbits], ?_⟩
    have hback : colon ∉ back := colon_notMem_parseU8 hbits
    rw [(splitOnce_eq_some hsplit).1]
    simp [hback, show colon ≠ slash by decide]

/-- The address of each family an assignment names. -/
def ipv4Of (assignment : Text) : Option Ipv4Addr := parseIpv4 (assignmentParts assignment).1

def ipv6Of (assignment : Text) : Option Ipv6Addr :=
  match parseIpv6 (assignmentParts assignment).1 with
  | .ok ip => ip
  | .error _ => none

/-- A valid assignment names an address of the family its colons say. -/
theorem ValidAssignment.families {assignment : Text} (h : ValidAssignment assignment) :
    (∃ ip bits, assignmentInet assignment = .ok (some (.v4 ip bits)) ∧ colon ∉ assignment.bytes ∧
        ipv4Of assignment = some ip ∧ ipv6Of assignment = none) ∨
      ∃ ip bits, assignmentInet assignment = .ok (some (.v6 ip bits)) ∧ colon ∈ assignment.bytes ∧
        ipv4Of assignment = none ∧ ipv6Of assignment = some ip := by
  obtain ⟨inet, network, hinet, -⟩ := h
  have hread := hinet
  unfold assignmentInet at hread
  split at hread
  · rename_i ip bits hparsed
    obtain ⟨hparts, hcolon⟩ := assignmentParts_of_parsed hparsed
    unfold parseInet at hread
    cases hipv4 : parseIpv4 ip with
    | some octets =>
      rw [hipv4] at hread
      obtain rfl := Option.some.inj (Except.ok.inj hread)
      have hno := colon_notMem_parseIpv4 hipv4
      refine .inl ⟨octets, _, hinet, mt hcolon.mp hno, by rw [ipv4Of, hparts, hipv4], ?_⟩
      simp [ipv6Of, hparts, parseIpv6, hno]
    | none =>
      rw [hipv4] at hread
      obtain ⟨octets, hipv6, heq⟩ := bind_eq_ok hread
      cases octets with
      | none => cases heq
      | some octets =>
        obtain rfl := Option.some.inj (Except.ok.inj heq)
        refine .inr ⟨octets, _, hinet, hcolon.mpr (colon_mem_parseIpv6 hipv6), by rw [ipv4Of, hparts, hipv4], ?_⟩
        simp [ipv6Of, hparts, hipv6]
  · cases hread

/-- The addresses of each family a member is assigned. -/
def MemberRecord.ipv4s (m : MemberRecord) : List Ipv4Addr := m.ipAssignments.filterMap ipv4Of

def MemberRecord.ipv6s (m : MemberRecord) : List Ipv6Addr := m.ipAssignments.filterMap ipv6Of

/-! ### What the others are told -/

theorem head?_filterMap_find? {α β : Type} {f : α → Option β} {p : α → Bool} {l : List α}
    (h : ∀ a ∈ l, p a = (f a).isSome) : (l.filterMap f).head? = (l.find? p).bind f := by
  induction l with
  | nil => rfl
  | cons a rest ih =>
    obtain ⟨hfirst, hrest⟩ := List.forall_mem_cons.mp h
    cases hf : f a with
    | none => simp [hf, hfirst, ih hrest]
    | some b => simp [hf, hfirst]

section
variable {m : MemberRecord} (hvalid : ∀ a ∈ m.ipAssignments, ValidAssignment a)
include hvalid

theorem firstIpv4_bind : m.firstIpv4.bind ipv4Of = m.ipv4s.head? := by
  refine (head?_filterMap_find? fun a ha => ?_).symm
  rcases (hvalid a ha).families with ⟨ip, bits, -, hcolon, hipv4, -⟩ | ⟨ip, bits, -, hcolon, hipv4, -⟩
  · simp [hcolon, hipv4]
  · simp [hcolon, hipv4]

theorem firstIpv6_bind : m.firstIpv6.bind ipv6Of = m.ipv6s.head? := by
  refine (head?_filterMap_find? fun a ha => ?_).symm
  rcases (hvalid a ha).families with ⟨ip, bits, -, hcolon, -, hipv6⟩ | ⟨ip, bits, -, hcolon, -, hipv6⟩
  · simp [hcolon, hipv6]
  · simp [hcolon, hipv6]

/-- The first assignments are addresses of their families. -/
theorem readable_of_valid : m.Readable where
  ipv4 := by
    intro a ha
    have hcolon := firstIpv4_no_colon m a ha
    rcases (hvalid a (List.mem_of_find?_eq_some ha)).families with ⟨ip, bits, -, -, hipv4, -⟩ | ⟨ip, bits, -, hc, -⟩
    · exact Option.isSome_iff_exists.mpr ⟨ip, hipv4⟩
    · exact absurd hc hcolon
  ipv6 := by
    intro a ha
    have hcolon : colon ∈ a.bytes := by simpa using List.find?_some ha
    rcases (hvalid a (List.mem_of_find?_eq_some ha)).families with ⟨ip, bits, -, hc, -⟩ | ⟨ip, bits, -, -, hipv4, hipv6⟩
    · exact absurd hcolon hc
    · refine ⟨hipv4, ip, ?_⟩
      unfold ipv6Of at hipv6
      split at hipv6
      · rename_i heq
        rw [heq, hipv6]
      · cases hipv6

/-- A member is listed under its first address of each family. -/
theorem listed_of_valid (networkId : UInt64) : ∃ listed, m.listed networkId = some listed ∧
    listed.ipv4.map Prod.fst = m.ipv4s.head? ∧ listed.ipv6.map Prod.fst = m.ipv6s.head? := by
  obtain ⟨listed, hlisted⟩ := Option.isSome_iff_exists.mp ((isSome_listed networkId m).mpr (readable_of_valid hvalid))
  refine ⟨listed, hlisted, ?_⟩
  obtain ⟨ipv4, hipv4, hrest⟩ := Option.bind_eq_some_iff.mp hlisted
  obtain ⟨ipv6, hipv6, hlisting⟩ := Option.bind_eq_some_iff.mp hrest
  obtain rfl := Option.some.inj hlisting
  rw [← firstIpv4_bind hvalid, ← firstIpv6_bind hvalid]
  constructor
  · cases hfirst : m.firstIpv4 with
    | none =>
      rw [hfirst] at hipv4
      obtain rfl := Option.some.inj hipv4
      rfl
    | some a =>
      rw [hfirst] at hipv4
      obtain ⟨ip, hip, rfl⟩ := Option.map_eq_some_iff.mp hipv4
      exact hip.symm
  · cases hfirst : m.firstIpv6 with
    | none =>
      rw [hfirst] at hipv6
      obtain rfl := Option.some.inj hipv6
      rfl
    | some a =>
      rw [hfirst, listedIpv6] at hipv6
      split at hipv6
      · rename_i ip _ hip
        obtain rfl := Option.some.inj hipv6
        simp [listing, ipv6Of, hip]
      · cases hipv6

end

/-! ### What a node takes -/

theorem staticIpsOf_serialize (inets : List InetAddress) (fuel : Nat) (hfuel : inets.length ≤ fuel) :
    staticIpsOf fuel (inets.flatMap InetAddress.serialize) = inets := by
  induction inets generalizing fuel with
  | nil => cases fuel <;> rfl
  | cons inet rest ih =>
    obtain ⟨fuel, rfl⟩ : ∃ f, fuel = f + 1 := ⟨fuel - 1, by simp at hfuel; omega⟩
    have hempty : (inet.serialize ++ rest.flatMap InetAddress.serialize).isEmpty = false := by
      cases inet <;> simp [InetAddress.serialize]
    rw [List.flatMap_cons, staticIpsOf, hempty, InetAddress.deserialize_serialize]
    simp [ih fuel (by simpa using hfuel)]

theorem length_le_flatMap_serialize (inets : List InetAddress) :
    inets.length ≤ (inets.flatMap InetAddress.serialize).length := by
  induction inets with
  | nil => exact Nat.le_refl _
  | cons inet rest ih =>
    rw [List.flatMap_cons, List.length_append, List.length_cons]
    have hpos : 0 < inet.serialize.length := by cases inet <;> simp [InetAddress.serialize]
    omega

/-- Valid assignments are sent as addresses of the families they name. -/
theorem serializeIpAssignments_valid {assignments : List Text} (hvalid : ∀ a ∈ assignments, ValidAssignment a) :
    ∃ inets : List InetAddress, serializeIpAssignments assignments = .ok (inets.flatMap InetAddress.serialize) ∧
      (∀ inet ∈ inets, inet ≠ .null) ∧ inets.length = assignments.length ∧
      inets.filterMap InetAddress.ipv4? = assignments.filterMap ipv4Of ∧
      inets.filterMap InetAddress.ipv6? = assignments.filterMap ipv6Of := by
  induction assignments with
  | nil => exact ⟨[], rfl, by simp, rfl, rfl, rfl⟩
  | cons a rest ih =>
    obtain ⟨hfirst, hrest⟩ := List.forall_mem_cons.mp hvalid
    obtain ⟨inets, hinets, hnull, hlength, hipv4s, hipv6s⟩ := ih hrest
    obtain ⟨bs, hbs, hser⟩ := bind_eq_ok hinets
    have hcons : ∀ inet, assignmentInet a = .ok (some inet) →
        serializeIpAssignments (a :: rest) = .ok ((inet :: inets).flatMap InetAddress.serialize) := by
      intro inet hinet
      simp only [serializeIpAssignments, collect, hinet, hbs, ok_bind, List.flatMap_cons, pure, Except.pure,
        Option.toList_some, List.cons_append, List.nil_append, ← Except.ok.inj hser]
    rcases hfirst.families with ⟨ip, bits, hinet, -, hipv4, hipv6⟩ | ⟨ip, bits, hinet, -, hipv4, hipv6⟩
    · refine ⟨.v4 ip bits :: inets, hcons _ hinet, by simpa using hnull, by simp [hlength], ?_, ?_⟩
      · simpa [List.filterMap_cons, hipv4] using hipv4s
      · simpa [List.filterMap_cons, hipv6] using hipv6s
    · refine ⟨.v6 ip bits :: inets, hcons _ hinet, by simpa using hnull, by simp [hlength], ?_, ?_⟩
      · simpa [List.filterMap_cons, hipv4] using hipv4s
      · simpa [List.filterMap_cons, hipv6] using hipv6s

section
variable {network : NetworkRecord} {member : MemberRecord} {routes : List ManagedRoute}
  {com : CertificateOfMembership} {now : UInt64} {capabilitiesRaw tagsRaw : Bytes} {entries : Dictionary}
  (h : networkConfigEntries network member routes com now capabilitiesRaw tagsRaw = .ok entries)
include h

/-- A node takes the last of its addresses of each family, and keeps what it had of a
family it is assigned none of. -/
theorem assigned_of_config (hne : member.ipAssignments ≠ [])
    (hvalid : ∀ a ∈ member.ipAssignments, ValidAssignment a) (directory : Bytes) (net : NetworkMembership)
    (ourAddress : ByteVec 5) :
    let net' := net.applyDictionary ourAddress (entries.addBinary Key.peerDirectory directory).serialize
    net'.assignedIpv4 = member.ipv4s.getLast?.or net.assignedIpv4 ∧
      net'.assignedIpv6 = member.ipv6s.getLast?.or net.assignedIpv6 := by
  intro net'
  set dict := entries.addBinary Key.peerDirectory directory with hdict
  have hplain : dict.PlainKeys := plainKeys_addBinary (plainKeys_config h) directory
  have hnet' : net' = net.update (dict.content net.networkId ourAddress) :=
    net.applyDictionary_eq_update ourAddress (Dictionary.deserialize_serialize dict hplain)
  obtain ⟨ips, hips, hbinary⟩ := getBinary_staticIps h hne directory
  obtain ⟨inets, hinets, hnull, hlength, hipv4s, hipv6s⟩ := serializeIpAssignments_valid hvalid
  obtain rfl := Except.ok.inj (hinets.symm.trans hips)
  have hstatic : dict.staticIps = inets := by
    rw [Dictionary.staticIps, hbinary]
    exact staticIpsOf_serialize inets _ (length_le_flatMap_serialize inets)
  have hsome : inets.all (· = .null) = false := by
    cases inets with
    | nil => exact absurd hlength.symm (by simpa using hne)
    | cons inet rest => simp [hnull inet List.mem_cons_self]
  have hipv4 : dict.assignedIpv4 = member.ipv4s.getLast? := by
    rw [Dictionary.assignedIpv4, hstatic, hsome, hipv4s]
    rfl
  have hipv6 : dict.assignedIpv6 = member.ipv6s.getLast? := by
    rw [Dictionary.assignedIpv6, hstatic, hsome, hipv6s]
    rfl
  rw [hnet']
  exact ⟨by rw [← hipv4]; rfl, by rw [← hipv6]; rfl⟩

end

/-! ### Agreement -/

/-- The first and the last address of each family a member is assigned are the same, and
its node held none before of a family it is assigned none of. -/
structure MemberRecord.OneOfEach (m : MemberRecord) (net : NetworkMembership) : Prop where
  ipv4 : m.ipv4s.head? = m.ipv4s.getLast?
  ipv6 : m.ipv6s.head? = m.ipv6s.getLast?
  noIpv4 : m.ipv4s = [] → net.assignedIpv4 = none
  noIpv6 : m.ipv6s = [] → net.assignedIpv6 = none

theorem getLast?_or_eq_head?_iff {α : Type} (l : List α) (before : Option α) :
    l.getLast?.or before = l.head? ↔ l.head? = l.getLast? ∧ (l = [] → before = none) := by
  cases l with
  | nil => simp
  | cons a rest =>
    simp only [List.getLast?_cons, Option.some_or, List.head?_cons, reduceCtorEq, false_implies, and_true]
    exact eq_comm

section
variable (pr : Primitives) (signingKey : ByteVec 32) (controller : Address) {network : NetworkRecord}

/-- A configuration that was issued is one with a directory. -/
theorem issued_config {member : MemberRecord} {routes : List ManagedRoute} {com : CertificateOfMembership}
    {networkId now : UInt64} {capabilitiesRaw tagsRaw base data : Bytes} {members : List MemberRecord}
    (hbase : buildNetworkConfig network member routes com now capabilitiesRaw tagsRaw = .ok base)
    (hdata : appendPeerDirectory pr signingKey controller.bytes networkId now base members = .ok data) :
    ∃ entries directory, networkConfigEntries network member routes com now capabilitiesRaw tagsRaw = .ok entries ∧
      base = Dictionary.serialize entries ∧ data = (Dictionary.addBinary entries Key.peerDirectory directory).serialize := by
  obtain ⟨entries, hentries, heq⟩ := bind_eq_ok hbase
  obtain rfl := Except.ok.inj heq
  rw [appendPeerDirectory_serialize pr signingKey controller networkId now (plainKeys_config hentries)] at hdata
  split at hdata
  · cases hdata
  · rename_i directory _
    exact ⟨entries, directory, hentries, rfl, (Except.ok.inj hdata).symm⟩

/-- A node and its peers agree on its addresses exactly if the first and the last of each
family it is assigned are the same, and it held none of a family it is assigned none of. -/
theorem addresses_agree_iff {m other : MemberRecord} {routes routes' : List ManagedRoute}
    {com com' : CertificateOfMembership} {now now' : UInt64} {caps caps' tags tags' base base' data data' : Bytes}
    {members members' : List MemberRecord} (hauth : m.authorized = true) (hne : m.ipAssignments ≠ [])
    (hbase : buildNetworkConfig network m routes com now caps tags = .ok base)
    (hdata : appendPeerDirectory pr signingKey controller.bytes network.id now base members = .ok data)
    (hbase' : buildNetworkConfig network other routes' com' now' caps' tags' = .ok base')
    (hdata' : appendPeerDirectory pr signingKey controller.bytes network.id now' base' members' = .ok data')
    (hm : m ∈ members') (hkeys : (members'.map MemberRecord.nodeId).Nodup) (hcount : members'.length ≤ 65535)
    (hvalid : ∀ m' ∈ members', ∀ a ∈ m'.ipAssignments, ValidAssignment a) (net : NetworkMembership) :
    ∃ directory listed, peerDirectoryFromDictData data' network.id other.nodeId = some directory ∧
      listed ∈ directory.members ∧ (∀ l ∈ directory.members, l.ztAddress = m.nodeId ↔ l = listed) ∧
      ((net.applyDictionary m.nodeId data).assignedIpv4 = listed.ipv4.map Prod.fst ∧
        (net.applyDictionary m.nodeId data).assignedIpv6 = listed.ipv6.map Prod.fst ↔ m.OneOfEach net) := by
  obtain ⟨entries, own, hentries, rfl, rfl⟩ := issued_config pr signingKey controller hbase hdata
  obtain ⟨entries', theirs, hentries', rfl, rfl⟩ := issued_config pr signingKey controller hbase' hdata'
  obtain ⟨data'', hdata'', hdecode⟩ := peerDirectory_readable pr signingKey controller network.id now' other.nodeId
    (plainKeys_config hentries') (no_directory_config hentries') hcount
    fun m' hm' _ => readable_of_valid (hvalid m' hm')
  obtain rfl := Except.ok.inj (hdata'.symm.trans hdata'')
  obtain ⟨listed, hlisted, hfirst4, hfirst6⟩ := listed_of_valid (hvalid m hm) network.id
  have heligible : m ∈ members'.filter MemberRecord.eligible :=
    List.mem_filter.mpr ⟨hm, by simp [MemberRecord.eligible, hauth, hne]⟩
  refine ⟨_, listed, hdecode, List.mem_filterMap.mpr ⟨m, heligible, hlisted⟩, ?_, ?_⟩
  · intro l hl
    obtain ⟨m', hm', hl⟩ := List.mem_filterMap.mp hl
    constructor
    · intro haddress
      rw [ztAddress_listed network.id hl] at haddress
      obtain rfl := List.inj_on_of_nodup_map hkeys (List.mem_filter.mp hm').1 hm haddress
      exact Option.some.inj (hl.symm.trans hlisted)
    · rintro rfl
      exact ztAddress_listed network.id hlisted
  · obtain ⟨hown4, hown6⟩ := assigned_of_config hentries hne (hvalid m hm) own net m.nodeId
    rw [hown4, hown6, hfirst4, hfirst6, getLast?_or_eq_head?_iff, getLast?_or_eq_head?_iff]
    exact ⟨fun h => ⟨h.1.1, h.2.1, h.1.2, h.2.2⟩, fun h => ⟨⟨h.ipv4, h.noIpv4⟩, h.ipv6, h.noIpv6⟩⟩

end

namespace SampleMembers

/-- A network as a controller creates it. -/
def network : NetworkRecord where
  id := networkId
  name := .literal []
  isPrivate := true
  creationTime := 0
  revision := 1
  multicastLimit := 32
  mtu := 2800
  v4AssignMode := .literal ['z', 't']
  v6AssignMode := .literal ['n', 'o', 'n', 'e']
  rules := []
  capabilities := []
  tags := []
  enableBroadcast := true

def com (m : MemberRecord) : CertificateOfMembership :=
  memberCom Sample.primitives (Sample.key 1) controller.bytes networkId 1000 m

def config (m : MemberRecord) : Except Fault Bytes := buildNetworkConfig network m [] (com m) 1000 [] []

def withDirectory (base : Bytes) (members : List MemberRecord) : Except Failure Bytes :=
  appendPeerDirectory Sample.primitives (Sample.key 1) controller.bytes network.id 1000 base members

/-- A membership that no configuration was applied to. -/
def fresh : NetworkMembership := .new networkId 2800

theorem valid_ipv4 : ValidAssignment ipv4 :=
  ⟨.v4 ⟨[10, 0, 0, 2], rfl⟩ 24, .v4 ⟨[10, 0, 0, 0], rfl⟩ 24, by decide, by decide⟩

theorem valid_otherIpv4 : ValidAssignment otherIpv4 :=
  ⟨.v4 ⟨[10, 0, 0, 3], rfl⟩ 24, .v4 ⟨[10, 0, 0, 0], rfl⟩ 24, by decide, by decide⟩

end SampleMembers

open SampleMembers in
/-- A member with two IPv4 addresses holds the second and is listed under the first. -/
theorem addresses_disagree : ValidAssignment ipv4 ∧ ValidAssignment otherIpv4 ∧
    ∃ base data base' data' directory, config (member 2 [ipv4, otherIpv4]) = .ok base ∧
      withDirectory base [member 2 [ipv4, otherIpv4]] = .ok data ∧ config (member 4 []) = .ok base' ∧
      withDirectory base' [member 2 [ipv4, otherIpv4]] = .ok data' ∧
      peerDirectoryFromDictData data' network.id (address 4) = some directory ∧
      (fresh.applyDictionary (address 2) data).assignedIpv4 = some ⟨[10, 0, 0, 3], rfl⟩ ∧
      directory.members = [listing networkId (address 2) (some (⟨[10, 0, 0, 2], rfl⟩, 24)) none] := by
  have hrun : okWith (config (member 2 [ipv4, otherIpv4])) (fun base =>
      okWith (withDirectory base [member 2 [ipv4, otherIpv4]]) fun data =>
      okWith (config (member 4 [])) fun base' =>
      okWith (withDirectory base' [member 2 [ipv4, otherIpv4]]) fun data' =>
        (peerDirectoryFromDictData data' network.id (address 4)).map PeerDirectory.members =
            some [listing networkId (address 2) (some (⟨[10, 0, 0, 2], rfl⟩, 24)) none] ∧
          (fresh.applyDictionary (address 2) data).assignedIpv4 = some ⟨[10, 0, 0, 3], rfl⟩) = true := by
    decide +kernel
  obtain ⟨base, hbase, hrun⟩ := exists_of_okWith hrun
  obtain ⟨data, hdata, hrun⟩ := exists_of_okWith hrun
  obtain ⟨base', hbase', hrun⟩ := exists_of_okWith hrun
  obtain ⟨data', hdata', hrun⟩ := exists_of_okWith hrun
  obtain ⟨hdirectory, hown⟩ := of_decide_eq_true hrun
  obtain ⟨directory, hdecode, hmembers⟩ := Option.map_eq_some_iff.mp hdirectory
  exact ⟨valid_ipv4, valid_otherIpv4, base, data, base', data', directory, hbase, hdata, hbase', hdata', hdecode,
    hown, hmembers⟩

open SampleMembers in
/-- A member with one address holds it, and the others are told it. -/
theorem addresses_agree_iff_one : ∃ base data base' data' directory listed,
    config (member 2 [ipv4]) = .ok base ∧ withDirectory base [member 2 [ipv4]] = .ok data ∧
    config (member 4 []) = .ok base' ∧ withDirectory base' [member 2 [ipv4]] = .ok data' ∧
    peerDirectoryFromDictData data' network.id (address 4) = some directory ∧ listed ∈ directory.members ∧
    (fresh.applyDictionary (address 2) data).assignedIpv4 = listed.ipv4.map Prod.fst := by
  have hrun : okWith (config (member 2 [ipv4])) (fun base =>
      okWith (withDirectory base [member 2 [ipv4]]) fun _ => okWith (config (member 4 [])) fun base' =>
      okWith (withDirectory base' [member 2 [ipv4]]) fun _ => true) = true := by
    decide +kernel
  obtain ⟨base, hbase, hrun⟩ := exists_of_okWith hrun
  obtain ⟨data, hdata, hrun⟩ := exists_of_okWith hrun
  obtain ⟨base', hbase', hrun⟩ := exists_of_okWith hrun
  obtain ⟨data', hdata', -⟩ := exists_of_okWith hrun
  have hvalid : ∀ m' ∈ [member 2 [ipv4]], ∀ a ∈ m'.ipAssignments, ValidAssignment a := by
    simpa [member] using valid_ipv4
  obtain ⟨directory, listed, hdecode, hlisted, -, hiff⟩ :=
    addresses_agree_iff Sample.primitives (Sample.key 1) controller rfl (by simp [member]) hbase hdata hbase' hdata'
      List.mem_cons_self (by simp) (by simp) hvalid fresh
  have hone : (member 2 [ipv4]).OneOfEach fresh :=
    ⟨by decide, by decide, fun _ => rfl, fun _ => rfl⟩
  exact ⟨base, data, base', data', directory, listed, hbase, hdata, hbase', hdata', hdecode, hlisted,
    (hiff.mpr hone).1⟩

end ManyTier.Controller
