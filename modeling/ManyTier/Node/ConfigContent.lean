import ManyTier.Node.ConfigApply

/-! What a configuration says, field by field.

A dictionary says something about a field or nothing (`ConfigContent`), and applying it
changes exactly the fields it says something about (`applyDictionary_eq_update`). So one
configuration after another leaves what the second says, and under that what the first
says, and under that what was there before: the second alone decides only where it says
everything (`lastWriterWins_iff`). -/
namespace ManyTier

namespace InetAddress

def ipv4? : InetAddress → Option Ipv4Addr
  | .v4 ip _ => some ip
  | _ => none

def ipv6? : InetAddress → Option Ipv6Addr
  | .v6 ip _ => some ip
  | _ => none

section
variable (ip : ByteVec 4) (ip' : ByteVec 16) (port : UInt16)

@[simp] theorem ipv4?_v4 : (v4 ip port).ipv4? = some ip := rfl
@[simp] theorem ipv4?_v6 : (v6 ip' port).ipv4? = none := rfl
@[simp] theorem ipv6?_v4 : (v4 ip port).ipv6? = none := rfl
@[simp] theorem ipv6?_v6 : (v6 ip' port).ipv6? = some ip' := rfl

end

end InetAddress

/-- What a dictionary says about a membership. -/
structure ConfigContent where
  mtu : Option UInt16
  ourCom : Option CertificateOfMembership
  ipv4 : Option Ipv4Addr
  ipv6 : Option Ipv6Addr
  routes : Option (List Bytes)
  directory : Option PeerDirectory

namespace Dictionary
variable (dict : Dictionary)

def staticIps : List InetAddress :=
  match dict.getBinary ConfigKey.staticIps with
  | some data => staticIpsOf data.length data
  | none => []

def ourCom : Option CertificateOfMembership :=
  (dict.getBinary ConfigKey.com).bind fun data => (CertificateOfMembership.deserialize data).toOption.map Prod.fst

/-- The last address of the list, or of the text when the list names none. -/
def assignedIpv4 : Option Ipv4Addr :=
  if dict.staticIps.all (· = .null) then
    ((legacyAssignments (dict.getText ConfigKey.v4s)).filterMap fun part =>
      (parseIpv4CidrText part).map Prod.fst).getLast?
  else (dict.staticIps.filterMap InetAddress.ipv4?).getLast?

def assignedIpv6 : Option Ipv6Addr :=
  if dict.staticIps.all (· = .null) then
    ((legacyAssignments (dict.getText ConfigKey.v6s)).filterMap fun part =>
      (parseIpv6CidrText part).map Prod.fst).getLast?
  else (dict.staticIps.filterMap InetAddress.ipv6?).getLast?

/-- An empty list of routes says nothing. -/
def routes : Option (List Bytes) :=
  ((dict.getBinary ConfigKey.routes).map fun data => routesOf data.length data).filter fun r => ! r.isEmpty

def directory (networkId : UInt64) (ourAddress : ByteVec 5) : Option PeerDirectory :=
  (dict.getBinary ConfigKey.peerDirectory).bind fun data =>
    if data.length < 2 then none
    else peerDirectoryEntries networkId ourAddress (u16At data 0).toNat (data.drop 2)

def content (networkId : UInt64) (ourAddress : ByteVec 5) : ConfigContent where
  mtu := (dict.getHexU64 ConfigKey.mtu).bind fun v => if v.toNat < 2 ^ 16 then some v.toUInt16 else none
  ourCom := dict.ourCom
  ipv4 := dict.assignedIpv4
  ipv6 := dict.assignedIpv6
  routes := dict.routes
  directory := dict.directory networkId ourAddress

end Dictionary

/-- The membership with the fields a configuration says something about. -/
def NetworkMembership.update (net : NetworkMembership) (c : ConfigContent) : NetworkMembership :=
  { net with
    mtu := c.mtu.getD net.mtu
    ourCom := c.ourCom.or net.ourCom
    assignedIpv4 := c.ipv4.or net.assignedIpv4
    assignedIpv6 := c.ipv6.or net.assignedIpv6
    routes := c.routes.getD net.routes
    members := (c.directory.map PeerDirectory.members).getD net.members
    peerComs := (c.directory.map PeerDirectory.peerComs).getD net.peerComs }

/-! ### One configuration -/

/-- What was found last, or else what was there. -/
theorem getLast?_cons_or {α : Type} (found : Option α) (l : List α) (before : Option α) :
    ((found.toList ++ l).getLast?).or before = l.getLast?.or (found.or before) := by
  cases found with
  | none => rfl
  | some a => cases l <;> simp [List.getLast?_cons]

/-- A loop that takes up each address it finds ends with the last of each family. -/
theorem foldl_assign {α : Type} {f : NetworkMembership → α → NetworkMembership} (find4 : α → Option Ipv4Addr)
    (find6 : α → Option Ipv6Addr)
    (hf : ∀ net x, f net x = { net with
      assignedIpv4 := (find4 x).or net.assignedIpv4, assignedIpv6 := (find6 x).or net.assignedIpv6 })
    (l : List α) (net : NetworkMembership) :
    l.foldl f net = { net with
      assignedIpv4 := (l.filterMap find4).getLast?.or net.assignedIpv4
      assignedIpv6 := (l.filterMap find6).getLast?.or net.assignedIpv6 } := by
  induction l generalizing net with
  | nil => rfl
  | cons x rest ih =>
    have hcons : ∀ {β : Type} (find : α → Option β),
        (x :: rest).filterMap find = (find x).toList ++ rest.filterMap find := fun find => by
      rw [List.filterMap_cons]
      cases find x <;> rfl
    rw [List.foldl_cons, ih, hf, hcons, hcons, getLast?_cons_or, getLast?_cons_or]

theorem filterMap_none {α β : Type} (l : List α) : l.filterMap (fun _ => (none : Option β)) = [] := by
  simp

theorem applyLegacyIpAssignments_eq (net : NetworkMembership) (dict : Dictionary) :
    applyLegacyIpAssignments net dict = { net with
      assignedIpv4 := ((legacyAssignments (dict.getText ConfigKey.v4s)).filterMap fun part =>
        (parseIpv4CidrText part).map Prod.fst).getLast?.or net.assignedIpv4
      assignedIpv6 := ((legacyAssignments (dict.getText ConfigKey.v6s)).filterMap fun part =>
        (parseIpv6CidrText part).map Prod.fst).getLast?.or net.assignedIpv6 } := by
  unfold applyLegacyIpAssignments
  simp only
  rw [foldl_assign (fun _ => none) (fun part => (parseIpv6CidrText part).map Prod.fst),
    foldl_assign (fun part => (parseIpv4CidrText part).map Prod.fst) (fun _ => none), filterMap_none,
    filterMap_none]
  · rfl
  · intro net part
    cases parseIpv4CidrText part <;> rfl
  · intro net part
    cases parseIpv6CidrText part <;> rfl

/-- Addresses none of which is one are no addresses of either family. -/
theorem filterMap_null {β : Type} {find : InetAddress → Option β} (hnull : find .null = none)
    {ips : List InetAddress} (h : ips.all (· = .null) = true) : ips.filterMap find = [] := by
  rw [List.filterMap_eq_nil_iff]
  intro ip hip
  have hip' : ip = .null := by simpa using List.all_eq_true.mp h ip hip
  rw [hip', hnull]

theorem applyAssignments_eq (net : NetworkMembership) (dict : Dictionary) :
    applyAssignments net dict = { net with
      assignedIpv4 := dict.assignedIpv4.or net.assignedIpv4
      assignedIpv6 := dict.assignedIpv6.or net.assignedIpv6 } := by
  have hfold := foldl_assign InetAddress.ipv4? InetAddress.ipv6? (f := assignStaticIp)
    (fun net ip => by cases ip <;> rfl) dict.staticIps net
  show (if dict.staticIps.all (· = .null) then
      applyLegacyIpAssignments (dict.staticIps.foldl assignStaticIp net) dict
    else dict.staticIps.foldl assignStaticIp net) = _
  rw [hfold, Dictionary.assignedIpv4, Dictionary.assignedIpv6]
  split
  · rename_i hnull
    rw [applyLegacyIpAssignments_eq, filterMap_null rfl hnull, filterMap_null rfl hnull]
    rfl
  · rfl

theorem applyOurCom_eq (net : NetworkMembership) (dict : Dictionary) :
    applyOurCom net dict = { net with ourCom := dict.ourCom.or net.ourCom } := by
  unfold applyOurCom Dictionary.ourCom
  cases dict.getBinary ConfigKey.com with
  | none => rfl
  | some data =>
    simp only [Option.bind_some]
    cases CertificateOfMembership.deserialize data <;> rfl

theorem applyRoutes_eq (net : NetworkMembership) (dict : Dictionary) :
    applyRoutes net dict = { net with routes := dict.routes.getD net.routes } := by
  unfold applyRoutes Dictionary.routes
  cases dict.getBinary ConfigKey.routes with
  | none => rfl
  | some data =>
    simp only [Option.map_some]
    by_cases hempty : (routesOf data.length data).isEmpty = true
    · simp [hempty, Option.filter]
    · simp [hempty, Option.filter]

theorem peerDirectoryFromDictData_eq {dictData : Bytes} {dict : Dictionary}
    (h : Dictionary.deserialize dictData = .ok dict) (networkId : UInt64) (ourAddress : ByteVec 5) :
    peerDirectoryFromDictData dictData networkId ourAddress = dict.directory networkId ourAddress := by
  unfold peerDirectoryFromDictData Dictionary.directory
  rw [h]
  rfl

namespace NetworkMembership
variable (net : NetworkMembership) (ourAddress : ByteVec 5)

/-- A configuration that can be read changes what it says something about. -/
theorem applyDictionary_eq_update {dictData : Bytes} {dict : Dictionary}
    (h : Dictionary.deserialize dictData = .ok dict) :
    net.applyDictionary ourAddress dictData = net.update (dict.content net.networkId ourAddress) := by
  rw [applyDictionary_eq, peerDirectoryFromDictData_eq h, applySettings, networkMtuFromDictData, h]
  simp only
  rw [applyRoutes_eq, applyAssignments_eq, applyOurCom_eq]
  cases hdirectory : dict.directory net.networkId ourAddress <;>
    simp [update, Dictionary.content, hdirectory]

/-! ### One after another -/

/-- What a configuration is about. -/
structure Configured where
  assignedIpv4 : Option Ipv4Addr
  assignedIpv6 : Option Ipv6Addr
  routes : List Bytes
  members : List NetworkMember
  peerComs : List (ByteVec 5 × CertificateOfMembership)
  mtu : UInt16
  ourCom : Option CertificateOfMembership
  deriving DecidableEq

def configured : Configured where
  assignedIpv4 := net.assignedIpv4
  assignedIpv6 := net.assignedIpv6
  routes := net.routes
  members := net.members
  peerComs := net.peerComs
  mtu := net.mtu
  ourCom := net.ourCom

/-- Field by field, the second configuration says something, or what the first says, or
else what was there before it, is what a membership starts with. -/
structure Covered (mtu : UInt16) (first second : ConfigContent) : Prop where
  mtu : second.mtu.isSome ∨ first.mtu.getD net.mtu = mtu
  ourCom : second.ourCom.isSome ∨ first.ourCom.or net.ourCom = none
  ipv4 : second.ipv4.isSome ∨ first.ipv4.or net.assignedIpv4 = none
  ipv6 : second.ipv6.isSome ∨ first.ipv6.or net.assignedIpv6 = none
  routes : second.routes.isSome ∨ first.routes.getD net.routes = []
  directory : second.directory.isSome ∨
    (first.directory.map PeerDirectory.members).getD net.members = [] ∧
      (first.directory.map PeerDirectory.peerComs).getD net.peerComs = []

end NetworkMembership

theorem or_eq_iff {α : Type} (a b c : Option α) : a.or b = a.or c ↔ a.isSome ∨ b = c := by
  cases a <;> simp

theorem getD_eq_iff {α : Type} (a : Option α) (b c : α) : a.getD b = a.getD c ↔ a.isSome ∨ b = c := by
  cases a <;> simp

/-- Two configurations after one another leave what the second alone gives a fresh
membership exactly where the second covers the first and what was there. -/
theorem lastWriterWins_iff (net : NetworkMembership) (ourAddress : ByteVec 5) (mtu : UInt16)
    (data₁ data₂ : Bytes) (dict₁ dict₂ : Dictionary) (h₁ : Dictionary.deserialize data₁ = .ok dict₁)
    (h₂ : Dictionary.deserialize data₂ = .ok dict₂) :
    ((net.applyDictionary ourAddress data₁).applyDictionary ourAddress data₂).configured =
        ((NetworkMembership.new net.networkId mtu).applyDictionary ourAddress data₂).configured ↔
      net.Covered mtu (dict₁.content net.networkId ourAddress) (dict₂.content net.networkId ourAddress) := by
  have hid := net.networkId_applyDictionary ourAddress data₁
  rw [NetworkMembership.applyDictionary_eq_update _ _ h₂, hid,
    NetworkMembership.applyDictionary_eq_update _ _ h₁, NetworkMembership.applyDictionary_eq_update _ _ h₂]
  set first := dict₁.content net.networkId ourAddress
  have hnew : (NetworkMembership.new net.networkId mtu).networkId = net.networkId := rfl
  rw [hnew]
  set second := dict₂.content net.networkId ourAddress
  simp only [NetworkMembership.configured, NetworkMembership.update, NetworkMembership.new,
    NetworkMembership.Configured.mk.injEq, or_eq_iff, getD_eq_iff, Option.isSome_map]
  constructor
  · rintro ⟨hv4, hv6, hroutes, hmembers, hcoms, hmtu, hcom⟩
    refine ⟨hmtu, hcom, hv4, hv6, hroutes, ?_⟩
    rcases hmembers with hsome | hmembers
    · exact .inl hsome
    · rcases hcoms with hsome | hcoms
      · exact .inl hsome
      · exact .inr ⟨hmembers, hcoms⟩
  · rintro ⟨hmtu, hcom, hv4, hv6, hroutes, hdirectory⟩
    refine ⟨hv4, hv6, hroutes, ?_, ?_, hmtu, hcom⟩
    · exact hdirectory.imp_right And.left
    · exact hdirectory.imp_right And.right

namespace SampleConfig

/-- A configuration that assigns the address 10.0.0.k. -/
def assigns (k : UInt8) : Dictionary :=
  [⟨ConfigKey.staticIps, (InetAddress.v4 ⟨[10, 0, 0, k], rfl⟩ 24).serialize⟩]

/-- A configuration that sets the MTU to 1500 and assigns nothing. -/
def withdraws : Dictionary := [⟨ConfigKey.mtu, ascii ['5', 'd', 'c']⟩]

def membership : NetworkMembership := .new 0x0a00000002000001 2800

def address : ByteVec 5 := ⟨[10, 0, 0, 0, 1], rfl⟩

end SampleConfig

open SampleConfig in
/-- The address that the second configuration no longer assigns stays. -/
theorem withdrawn_address_stays :
    ∃ (net : NetworkMembership) (data₁ data₂ : Bytes) (dict₁ dict₂ : Dictionary),
      Dictionary.deserialize data₁ = .ok dict₁ ∧ Dictionary.deserialize data₂ = .ok dict₂ ∧
      dict₂.assignedIpv4 = none ∧
      ((net.applyDictionary address data₁).applyDictionary address data₂).assignedIpv4 =
        some ⟨[10, 0, 0, 1], rfl⟩ ∧
      ((net.applyDictionary address data₁).applyDictionary address data₂).configured ≠
        ((NetworkMembership.new net.networkId 2800).applyDictionary address data₂).configured := by
  refine ⟨membership, (assigns 1).serialize, withdraws.serialize, assigns 1, withdraws, ?_, ?_, ?_, ?_, ?_⟩
  · decide
  · decide
  · decide
  · decide
  · decide

open SampleConfig in
/-- An address that is assigned anew takes the place of the one before it. -/
theorem lastWriterWins_iff_assigns :
    ((membership.applyDictionary address (assigns 1).serialize).applyDictionary address
        (assigns 2).serialize).configured =
      ((NetworkMembership.new membership.networkId 2800).applyDictionary address
        (assigns 2).serialize).configured := by
  refine (lastWriterWins_iff membership address 2800 _ _ (assigns 1) (assigns 2) (by decide)
    (by decide)).mpr ⟨?_, ?_, ?_, ?_, ?_, ?_⟩
  · decide
  · decide
  · decide
  · decide
  · decide
  · decide

/-! ### A configuration that cannot be read -/

/-- A configuration that cannot be read leaves a membership as it is. The MTU and the
directory are behind parsers of their own, which read the same dictionary. -/
theorem NetworkMembership.applyDictionary_unreadable (net : NetworkMembership) (ourAddress : ByteVec 5)
    {dictData : Bytes} {e : DictionaryError} (h : Dictionary.deserialize dictData = .error e) :
    net.applyDictionary ourAddress dictData = net := by
  rw [applyDictionary_eq, applySettings, networkMtuFromDictData, peerDirectoryFromDictData, h]
  rfl

namespace Node

/-- Neither is the membership of a network changed, nor is a network announced as configured. -/
structure NoEffect (networkId : UInt64) (n n' : Node) : Prop where
  network : n'.findNetwork networkId = n.findNetwork networkId
  actions : ∃ emitted, n'.actions = n.actions ++ emitted ∧ ∀ id data, .networkConfigured id data ∉ emitted

theorem findNetwork_modifyNetwork {n : Node} {networkId : UInt64} {net : NetworkMembership}
    (h : n.findNetwork networkId = some net) {f : NetworkMembership → NetworkMembership}
    (hf : ∀ net, (f net).networkId = net.networkId) :
    (n.modifyNetwork networkId f).findNetwork networkId = some (f net) := by
  have hfind := find?_modifyFirst (l := n.networks) (p := fun net => net.networkId = networkId) (f := f)
    fun net hnet => by
      simpa [hf] using List.find?_some hnet
  exact hfind.trans (congrArg (Option.map f) h)

/-- What is done about a configuration that is whole and cannot be read: the request for
it counts as answered, and the network is announced. -/
theorem applyReceivedNetworkConfig_unreadable {n : Node} {nc whole : NetworkConfigPayload} {net : NetworkMembership}
    {e : DictionaryError} (hjoined : n.findNetwork nc.networkId = some net)
    (hwhole : (assembleNetworkConfig n.pendingNetworkConfigs nc).2 = some whole)
    (herror : Dictionary.deserialize whole.dictData = .error e) :
    (n.applyReceivedNetworkConfig nc).findNetwork nc.networkId = some { net with pendingConfigRequest := false } ∧
      (n.applyReceivedNetworkConfig nc).actions =
        n.actions ++ [.networkConfigured nc.networkId whole.dictData] := by
  have hid : whole.networkId = nc.networkId := networkId_assembleNetworkConfig hwhole
  unfold applyReceivedNetworkConfig
  rw [hjoined, if_neg (by simp)]
  simp only [hwhole, hid]
  refine ⟨?_, rfl⟩
  have happlied := findNetwork_modifyNetwork (n := { n with
    pendingNetworkConfigs := (assembleNetworkConfig n.pendingNetworkConfigs nc).1 }) hjoined
    (f := fun net => net.applyDictionary n.address whole.dictData) fun net =>
      net.networkId_applyDictionary n.address whole.dictData
  rw [net.applyDictionary_unreadable n.address herror] at happlied
  exact findNetwork_modifyNetwork happlied fun _ => rfl

/-- A configuration that cannot be read always has an effect: the network is announced as
configured. -/
theorem unreadable_effect (n : Node) (nc whole : NetworkConfigPayload) (net : NetworkMembership) (e : DictionaryError)
    (hjoined : n.findNetwork nc.networkId = some net)
    (hwhole : (assembleNetworkConfig n.pendingNetworkConfigs nc).2 = some whole)
    (herror : Dictionary.deserialize whole.dictData = .error e) :
    ¬ NoEffect nc.networkId n (n.applyReceivedNetworkConfig nc) := by
  rintro ⟨-, emitted, hactions, hnot⟩
  rw [(applyReceivedNetworkConfig_unreadable hjoined hwhole herror).2] at hactions
  rw [← List.append_cancel_left hactions] at hnot
  exact hnot _ _ List.mem_cons_self

/-- A node that waits for the configuration of a network. -/
def sampleWaiting : Node :=
  { Sample.start with networks := [{ NetworkMembership.new Sample.networkId 2800 with pendingConfigRequest := true }] }

/-- A dictionary of one byte, which is no entry. -/
def sampleUnreadable : NetworkConfigPayload := ⟨Sample.networkId, [0x61], none, none, none, none, none, none⟩

theorem unreadable_effect_byte :
    ¬ NoEffect Sample.networkId sampleWaiting (sampleWaiting.applyReceivedNetworkConfig sampleUnreadable) :=
  unreadable_effect sampleWaiting sampleUnreadable sampleUnreadable _ .missingEquals rfl rfl (by decide)

/-- After it the network is no longer asked for. -/
theorem unreadable_not_ignored : ¬ ∀ (n : Node) (nc whole : NetworkConfigPayload) (e : DictionaryError),
    (n.findNetwork nc.networkId).isSome = true → (assembleNetworkConfig n.pendingNetworkConfigs nc).2 = some whole →
    Dictionary.deserialize whole.dictData = .error e →
    NoEffect nc.networkId n (n.applyReceivedNetworkConfig nc) := by
  intro hall
  have hsame := (hall sampleWaiting sampleUnreadable sampleUnreadable .missingEquals rfl rfl (by decide)).network
  have hwhole : (assembleNetworkConfig sampleWaiting.pendingNetworkConfigs sampleUnreadable).2 =
      some sampleUnreadable := rfl
  have herror : Dictionary.deserialize sampleUnreadable.dictData = .error .missingEquals := by decide
  have hnow := (applyReceivedNetworkConfig_unreadable (n := sampleWaiting) rfl hwhole herror).1
  rw [hsame] at hnow
  revert hnow
  decide

end Node

end ManyTier
